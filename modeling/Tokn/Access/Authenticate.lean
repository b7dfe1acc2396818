import Tokn.Access.Keys
import Tokn.Lib.Ascii

/-!
# Who is authenticated

**The table** (`created_of_get`, `get_of_created`). It has one row for each key that some call has
created, with the hash of its secret and its providers, and the row is revoked if a later call has
revoked the key.

**Theorem (`authenticate_run`).** A token is accepted exactly if it is, up to white space at its
ends, the token of a created key that has not been revoked, and then for the providers of that key.
Every other token gets the same message.
-/

namespace Tokn.Access

/-! ## Tokens -/

theorem hexDigits_spec : ∀ c ∈ hexDigits,
    c ≠ '_' ∧ c.utf8Size = 1 ∧ Str.isWhitespace c = false :=
  Ascii.forall_mem_of_all (by decide)

/-- A text of hexadecimal digits. -/
structure Hex (s : String) (n : Nat) : Prop where
  digits : ∀ c ∈ s.toList, c ∈ hexDigits
  size : s.utf8ByteSize = n

theorem Hex.of_length {s : String} {n : Nat} (hdigits : ∀ c ∈ s.toList, c ∈ hexDigits)
    (hlength : s.toList.length = n) : Hex s n := by
  refine ⟨hdigits, ?_⟩
  have hsizes : s.toList.map Char.utf8Size = List.replicate n 1 := by
    rw [← hlength]
    exact List.map_eq_replicate_iff.mpr fun c hc => (hexDigits_spec c (hdigits c hc)).2.1
  rw [← String.ofList_toList (s := s), Str.utf8ByteSize_ofList, hsizes, List.sum_replicate,
    smul_eq_mul, mul_one]

theorem Hex.no_underscore {s : String} {n : Nat} (h : Hex s n) : '_' ∉ s.toList :=
  fun hmem => (hexDigits_spec '_' (h.digits '_' hmem)).1 rfl

theorem KeyDraw.hex_keyId (draw : KeyDraw) : Hex draw.keyId 16 := by
  refine Hex.of_length (fun c hc => ?_) ?_
  · rw [keyId, String.toList_ofList] at hc
    exact draw.id.hex c (List.mem_of_mem_take hc)
  · rw [keyId, String.toList_ofList, List.length_take, draw.id.length]
    rfl

theorem KeyDraw.hex_secret (draw : KeyDraw) : Hex draw.secret 64 := by
  refine Hex.of_length (fun c hc => ?_) ?_
  · rw [secret, String.toList_append] at hc
    exact (List.mem_append.mp hc).elim (draw.first.hex c) (draw.second.hex c)
  · rw [secret, String.toList_append, List.length_append, draw.first.length, draw.second.length]

theorem toList_formatToken (id secret : String) : (formatToken id secret).toList =
    ['_'].intercalate [KEY_PREFIX.toList, id.toList, secret.toList] := by
  simp [formatToken, List.intercalate, String.toList_append]

theorem no_underscore_keyPrefix : '_' ∉ KEY_PREFIX.toList := by decide

theorem splitOn_formatToken {id secret : String} (hid : '_' ∉ id.toList)
    (hsecret : '_' ∉ secret.toList) : ((formatToken id secret).toList.splitOn '_').map String.ofList =
      [KEY_PREFIX, id, secret] := by
  rw [toList_formatToken, List.splitOn_intercalate]
  · simp
  · simp [no_underscore_keyPrefix, hid, hsecret]
  · simp

/-- **What is parsed is what was formatted.** -/
theorem parseToken_eq_some {token id secret : String} :
    parseToken token = some (id, secret) ↔ Str.trim token = formatToken id secret ∧
      '_' ∉ id.toList ∧ '_' ∉ secret.toList ∧ id.utf8ByteSize = 16 ∧ secret.utf8ByteSize = 64 := by
  rw [parseToken]
  constructor
  · intro h
    split at h
    · rename_i keyPrefix id' secret' hparts
      split_ifs at h with hsizes
      cases h
      obtain ⟨rfl, hid, hsecret⟩ := hsizes
      have hsplit : (Str.trim token).toList.splitOn '_' =
          [KEY_PREFIX.toList, id.toList, secret.toList] := by
        have hchars := congrArg (List.map String.toList) hparts
        simpa [List.map_map, Function.comp_def] using hchars
      have hno : ∀ l ∈ (Str.trim token).toList.splitOn '_', '_' ∉ l :=
        fun l hl => Ascii.not_mem_of_mem_splitOn hl
      rw [hsplit] at hno
      refine ⟨?_, hno _ (by simp), hno _ (by simp), hid, hsecret⟩
      rw [← String.toList_inj, toList_formatToken, ← hsplit, List.intercalate_splitOn]
    · cases h
  · rintro ⟨htrim, hid, hsecret, hidSize, hsecretSize⟩
    rw [htrim, splitOn_formatToken hid hsecret]
    simp [hidSize, hsecretSize]

/-! ## Providers -/

/-- The providers that a request for a key names. -/
inductive Grants : List String → ProviderAccess → Prop where
  | unrestricted : Grants [] .all
  | wildcard {id : String} (h : Str.trim id = "*") : Grants [id] .all
  | only {ids : List String} (hne : ids ≠ []) (hstar : ∀ id ∈ ids, Str.trim id ≠ "*")
    (hempty : ∀ id ∈ ids, Str.trim id ≠ "") : Grants ids (.only (ids.map Str.trim).toFinset)

variable {ids : List String} {access : ProviderAccess} {calls : List Call} {key : CreatedApiKey}

theorem fromProviderIds_eq_ok :
    ProviderAccess.fromProviderIds ids = .ok access ↔ Grants ids access := by
  rw [ProviderAccess.fromProviderIds]
  by_cases hnil : ids.isEmpty = true
  · rw [if_pos hnil]
    rw [List.isEmpty_iff] at hnil
    subst hnil
    constructor
    · intro h
      cases h
      exact .unrestricted
    · intro h
      cases h with
      | unrestricted => rfl
      | only hne => exact absurd rfl hne
  · rw [if_neg hnil]
    rw [List.isEmpty_iff] at hnil
    by_cases hstar : (ids.any fun provider => decide (Str.trim provider = "*")) = true
    · rw [if_pos hstar, Except.bind_eq_ok]
      simp only [List.any_eq_true, decide_eq_true_eq] at hstar
      obtain ⟨id, hid, htrim⟩ := hstar
      constructor
      · rintro ⟨_, hlength, h⟩
        cases h
        have hone : ids.length = 1 := by simpa using Except.rejectIf_eq_ok.mp hlength
        obtain ⟨id', rfl⟩ := List.length_eq_one_iff.mp hone
        cases List.mem_singleton.mp hid
        exact .wildcard htrim
      · intro h
        cases h with
        | unrestricted => exact absurd rfl hnil
        | wildcard _ => exact ⟨⟨⟩, Except.rejectIf_eq_ok.mpr rfl, rfl⟩
        | only _ hnone => exact absurd htrim (hnone id hid)
    · rw [if_neg hstar, Except.bind_eq_ok]
      have hnone : ∀ id ∈ ids, Str.trim id ≠ "*" := fun id hid htrim =>
        hstar (List.any_eq_true.mpr ⟨id, hid, decide_eq_true htrim⟩)
      simp only [Except.rejectIf_eq_ok, decide_eq_false_iff_not, List.mem_toFinset, List.mem_map,
        not_exists, not_and]
      constructor
      · rintro ⟨_, hempty, h⟩
        cases h
        exact .only hnil hnone hempty
      · intro h
        cases h with
        | unrestricted => exact absurd rfl hnil
        | wildcard htrim => exact absurd htrim (hnone _ List.mem_cons_self)
        | only _ _ hempty => exact ⟨⟨⟩, hempty, rfl⟩

/-- **What is stored of the providers is read back.** -/
theorem grants_ids (h : Grants ids access) : Grants access.ids access := by
  cases h with
  | unrestricted => exact .wildcard (by decide)
  | wildcard _ => exact .wildcard (by decide)
  | only hne hstar hempty =>
    have hmem : ∀ id, id ∈ (ProviderAccess.only (ids.map Str.trim).toFinset).ids ↔
        ∃ id' ∈ ids, Str.trim id' = id := by
      intro id
      rw [ProviderAccess.ids, Finset.mem_sort, List.mem_toFinset, List.mem_map]
    have hsame : ((ProviderAccess.only (ids.map Str.trim).toFinset).ids.map Str.trim).toFinset =
        (ids.map Str.trim).toFinset := by
      ext id
      rw [List.mem_toFinset, List.mem_map, List.mem_toFinset, List.mem_map]
      simp only [hmem]
      constructor
      · rintro ⟨_, ⟨id', hid', rfl⟩, rfl⟩
        exact ⟨id', hid', (Str.trim_trim id').symm⟩
      · rintro ⟨id', hid', rfl⟩
        exact ⟨_, ⟨id', hid', rfl⟩, Str.trim_trim id'⟩
    obtain ⟨id₀, hid₀⟩ := List.exists_mem_of_ne_nil ids hne
    refine (congrArg (Grants _) (congrArg ProviderAccess.only hsame)).mp (Grants.only ?_ ?_ ?_)
    · exact List.ne_nil_of_mem ((hmem _).mpr ⟨id₀, hid₀, rfl⟩)
    · intro id hid
      obtain ⟨id', hid', rfl⟩ := (hmem id).mp hid
      rw [Str.trim_trim]
      exact hstar id' hid'
    · intro id hid
      obtain ⟨id', hid', rfl⟩ := (hmem id).mp hid
      rw [Str.trim_trim]
      exact hempty id' hid'

variable {env : Env}

theorem fromJson_toJson (hjson : ∀ l, env.jsonFromStr (env.jsonToString l) = some l)
    (h : Grants ids access) : ProviderAccess.fromJson env (access.toJson env) = .ok access := by
  rw [ProviderAccess.fromJson, ProviderAccess.toJson, hjson]
  exact fromProviderIds_eq_ok.mpr (grants_ids h)

/-! ## The table of a history -/

/-- What a successful call of `create_key` gives. -/
structure Creates (env : Env) (db : AccessDb) (call : Call) (ids : List String)
    (key : CreatedApiKey) (secret : String) : Prop where
  result : ∃ name now draws, call = .createKey name ids now draws
  performed : (call.perform env db).1 = some key
  fresh : db.get key.id = none
  inserted : (call.perform env db).2 = db.insertOrIgnore key.id {
    name := key.name
    secretHash := hashSecret env secret
    allowedProviders := key.providers.toJson env
    createdAt := key.createdAt
    revokedAt := none }
  token : key.token = formatToken key.id secret
  hexId : Hex key.id 16
  hexSecret : Hex secret 64
  grants : Grants ids key.providers

theorem allocate_spec (env : Env) (name : String) (providers : ProviderAccess) (createdAt : Int)
    (draws : List KeyDraw) (db : AccessDb) :
    (∃ e, allocate env name providers createdAt draws db = (.error e, db)) ∨
      ∃ draw : KeyDraw, db.get draw.keyId = none ∧
        allocate env name providers createdAt draws db =
          (.ok ⟨draw.keyId, name, formatToken draw.keyId draw.secret, providers, createdAt⟩,
            db.insertOrIgnore draw.keyId {
              name
              secretHash := hashSecret env draw.secret
              allowedProviders := providers.toJson env
              createdAt
              revokedAt := none }) := by
  induction draws with
  | nil => exact Or.inl ⟨_, rfl⟩
  | cons draw draws ih =>
    cases hget : db.get draw.keyId with
    | none =>
      refine Or.inr ⟨draw, hget, ?_⟩
      rw [allocate, AccessDb.insertKey, BTreeMap.contains, hget]
      rfl
    | some record =>
      have hsame : ∀ record', db.insertOrIgnore draw.keyId record' = db := by
        intro record'
        rw [Table.insertOrIgnore, BTreeMap.contains, hget]
        rfl
      have hnext : allocate env name providers createdAt (draw :: draws) db =
          allocate env name providers createdAt draws db := by
        rw [allocate, AccessDb.insertKey, BTreeMap.contains, hget, hsame]
        rfl
      rw [hnext]
      exact ih

theorem createKey_outcome (env : Env) (name : String) (ids : List String) (now : Int)
    (draws : Fin 4 → KeyDraw) (db : AccessDb) :
    (∃ e, (createKey env name ids now draws).outcome db = (.error e, db)) ∨
      ∃ providers, ProviderAccess.fromProviderIds ids = .ok providers ∧
        (createKey env name ids now draws).outcome db =
          allocate env name providers now (List.ofFn draws) db := by
  rw [createKey, Stateful.outcome_bind, Stateful.outcome_reading]
  cases Except.rejectIf (decide (Str.trim name = "")) AccessError.emptyName with
  | error e => exact Or.inl ⟨e, rfl⟩
  | ok _ =>
    dsimp only
    rw [Stateful.outcome_bind, Stateful.outcome_reading]
    cases ProviderAccess.fromProviderIds ids with
    | error e => exact Or.inl ⟨e, rfl⟩
    | ok providers => exact Or.inr ⟨providers, rfl, rfl⟩

/-- A call creates a key, or creates none and leaves the rows or revokes one of them. -/
theorem perform_spec (env : Env) (db : AccessDb) (call : Call) :
    (∃ ids key secret, Creates env db call ids key secret) ∨
      (call.perform env db).1 = none ∧ ((call.perform env db).2 = db ∧
          (∀ id now, call = .revokeKey id now → db.get id = none) ∨
        ∃ id now record, call = .revokeKey id now ∧ db.get id = some record ∧
          (call.perform env db).2 =
            db.set id { record with revokedAt := some (record.revokedAt.getD now) }) := by
  cases call with
  | createKey name ids now draws =>
    have hnone : ∀ id at', Call.createKey name ids now draws = .revokeKey id at' →
        db.get id = none := fun id at' h => (by cases h)
    rcases createKey_outcome env name ids now draws db with ⟨e, he⟩ |
      ⟨providers, hproviders, hoc⟩
    · rw [Call.perform, he]
      exact Or.inr ⟨rfl, Or.inl ⟨rfl, hnone⟩⟩
    rcases allocate_spec env name providers now (List.ofFn draws) db with ⟨e, he⟩ |
      ⟨draw, hfresh, hdraw⟩
    · rw [Call.perform, hoc, he]
      exact Or.inr ⟨rfl, Or.inl ⟨rfl, hnone⟩⟩
    · refine Or.inl ⟨ids, ⟨draw.keyId, name, formatToken draw.keyId draw.secret, providers, now⟩,
        draw.secret, ⟨_, _, _, rfl⟩, ?_, hfresh, ?_, rfl, draw.hex_keyId, draw.hex_secret,
        fromProviderIds_eq_ok.mp hproviders⟩ <;>
        rw [Call.perform, hoc, hdraw]
      rfl
  | revokeKey id now =>
    refine Or.inr ⟨rfl, ?_⟩
    rw [Call.perform, AccessDb.revokeKey]
    cases hget : db.get id with
    | none =>
      refine Or.inl ⟨rfl, fun id' now' h => ?_⟩
      cases h
      exact hget
    | some record => exact Or.inr ⟨id, now, record, rfl, hget, rfl⟩

/-- Some call has created the key, and the others followed. -/
def Created (env : Env) (calls : List Call) (ids : List String) (key : CreatedApiKey)
    (rest : List Call) : Prop :=
  ∃ before name now draws, calls = before ++ .createKey name ids now draws :: rest ∧
    ((Call.createKey name ids now draws).perform env (after env before)).1 = some key

/-- The row of a key. -/
structure Row (env : Env) (key : CreatedApiKey) (rest : List Call) (record : ApiKeyRecord) :
    Prop where
  name : record.name = key.name
  hash : ∃ secret, key.token = formatToken key.id secret ∧ Hex secret 64 ∧
    record.secretHash = hashSecret env secret
  providers : record.allowedProviders = key.providers.toJson env
  revoked : record.revokedAt.isSome = true ↔ ∃ now, Call.revokeKey key.id now ∈ rest

theorem after_concat (calls : List Call) (call : Call) :
    after env (calls ++ [call]) = (call.perform env (after env calls)).2 := List.foldl_concat ..

theorem created_concat {call : Call} {rest : List Call} :
    Created env (calls ++ [call]) ids key rest ↔
      (rest = [] ∧ (∃ name now draws, call = .createKey name ids now draws) ∧
        (call.perform env (after env calls)).1 = some key) ∨
      ∃ rest', rest = rest' ++ [call] ∧ Created env calls ids key rest' := by
  constructor
  · rintro ⟨before, name, now, draws, hcalls, hkey⟩
    rcases List.eq_nil_or_concat rest with rfl | ⟨rest', last, rfl⟩
    · obtain ⟨rfl, hcall⟩ := List.append_inj' hcalls rfl
      cases hcall
      exact Or.inl ⟨rfl, ⟨name, now, draws, rfl⟩, hkey⟩
    · rw [List.concat_eq_append, ← List.cons_append, ← List.append_assoc] at hcalls
      obtain ⟨rfl, hcall⟩ := List.append_inj' hcalls rfl
      cases hcall
      exact Or.inr ⟨rest', List.concat_eq_append, before, name, now, draws, rfl, hkey⟩
  · rintro (⟨rfl, ⟨name, now, draws, rfl⟩, hkey⟩ | ⟨rest', rfl, before, name, now, draws, rfl, hkey⟩)
    · exact ⟨calls, name, now, draws, rfl, hkey⟩
    · exact ⟨before, name, now, draws, by simp, hkey⟩

/-- The call that gave a key has created it. -/
theorem creates_of_performed {db : AccessDb} {call : Call}
    (h : (call.perform env db).1 = some key) :
    ∃ ids secret, Creates env db call ids key secret := by
  rcases perform_spec env db call with ⟨ids, key', secret, hcreates⟩ | ⟨hnone, -⟩
  · rw [hcreates.performed] at h
    cases h
    exact ⟨ids, secret, hcreates⟩
  · rw [hnone] at h
    cases h

theorem Created.creates {rest : List Call} (h : Created env calls ids key rest) :
    ∃ db call secret, Creates env db call ids key secret := by
  obtain ⟨before, name, now, draws, -, hkey⟩ := h
  obtain ⟨ids', secret, hcreates⟩ := creates_of_performed hkey
  obtain ⟨name', now', draws', hcall⟩ := hcreates.result
  cases hcall
  exact ⟨_, _, secret, hcreates⟩

/-- **Each created key has its row.** -/
theorem get_of_created {rest : List Call} (h : Created env calls ids key rest) :
    ∃ record, (after env calls).get key.id = some record ∧ Row env key rest record := by
  induction calls using List.reverseRecOn generalizing rest with
  | nil =>
    obtain ⟨before, _, _, _, hcalls, -⟩ := h
    exact absurd hcalls.symm (List.append_ne_nil_of_right_ne_nil before (List.cons_ne_nil _ _))
  | append_singleton calls call ih =>
    rw [after_concat]
    rcases created_concat.mp h with ⟨rfl, -, hkey⟩ | ⟨rest', rfl, hold⟩
    · obtain ⟨ids', secret, hcreates⟩ := creates_of_performed hkey
      rw [hcreates.inserted, Table.get_insertOrIgnore, if_pos rfl, hcreates.fresh,
        Option.getD_none]
      exact ⟨_, rfl, rfl, ⟨secret, hcreates.token, hcreates.hexSecret, rfl⟩, rfl, by simp⟩
    · obtain ⟨record, hget, hrow⟩ := ih hold
      have hsame : (∀ now, call ≠ .revokeKey key.id now) → Row env key (rest' ++ [call]) record := by
        intro hcall
        refine ⟨hrow.name, hrow.hash, hrow.providers, hrow.revoked.trans ?_⟩
        simp only [List.mem_append, List.mem_singleton]
        exact exists_congr fun now => (or_iff_left fun h => hcall now h.symm).symm
      rcases perform_spec env (after env calls) call with
        ⟨ids', key', secret, hcreates⟩ | ⟨-, ⟨hdb, hunknown⟩ | ⟨id, now, record', rfl, hget', hdb⟩⟩
      · obtain ⟨_, _, _, rfl⟩ := hcreates.result
        refine ⟨record, ?_, hsame fun now h => (by cases h)⟩
        have hne : key.id ≠ key'.id := by
          intro heq
          rw [heq, hcreates.fresh] at hget
          cases hget
        rw [hcreates.inserted, Table.get_insertOrIgnore, if_neg hne, hget]
      · refine ⟨record, by rw [hdb]; exact hget, hsame ?_⟩
        rintro now rfl
        rw [hunknown key.id now rfl] at hget
        cases hget
      · rw [hdb, Table.get_set]
        by_cases hid : key.id = id
        · subst hid
          rw [hget] at hget'
          cases hget'
          rw [if_pos rfl]
          refine ⟨_, rfl, hrow.name, hrow.hash, hrow.providers, ?_⟩
          simp only [Option.isSome_some, true_iff]
          exact ⟨now, List.mem_append_right _ (List.mem_singleton_self _)⟩
        · rw [if_neg hid]
          refine ⟨record, hget, hsame fun now' h => ?_⟩
          cases h
          exact hid rfl

/-- **Each row is that of a created key.** -/
theorem created_of_get {id : String} {record : ApiKeyRecord}
    (h : (after env calls).get id = some record) :
    ∃ ids key rest, Created env calls ids key rest ∧ key.id = id := by
  induction calls using List.reverseRecOn generalizing record with
  | nil => cases h
  | append_singleton calls call ih =>
    rw [after_concat] at h
    have hold : ∀ {record}, (after env calls).get id = some record →
        ∃ ids key rest, Created env (calls ++ [call]) ids key rest ∧ key.id = id := by
      intro record hget
      obtain ⟨ids, key, rest, hcreated, hid⟩ := ih hget
      exact ⟨ids, key, _, created_concat.mpr (Or.inr ⟨rest, rfl, hcreated⟩), hid⟩
    rcases perform_spec env (after env calls) call with
      ⟨ids, key, secret, hcreates⟩ | ⟨-, ⟨hdb, -⟩ | ⟨id', now, record', rfl, hget', hdb⟩⟩
    · rw [hcreates.inserted, Table.get_insertOrIgnore] at h
      by_cases hid : id = key.id
      · exact ⟨ids, key, [], created_concat.mpr
          (Or.inl ⟨rfl, hcreates.result, hcreates.performed⟩), hid.symm⟩
      · rw [if_neg hid] at h
        exact hold h
    · rw [hdb] at h
      exact hold h
    · rw [hdb, Table.get_set] at h
      by_cases hid : id = id'
      · exact hold (hid ▸ hget')
      · rw [if_neg hid] at h
        exact hold h

/-! ## Authentication -/

theorem hashSecret_inj (hsha : Function.Injective env.sha256) {s t : String}
    (h : hashSecret env s = hashSecret env t) : s = t := String.toByteArray_inj.mp (hsha h)

/-- What the token names, and the secret of the row, decide. -/
theorem authenticate_eq_ok {token : String} {db : AccessDb} {context : AccessContext} :
    authenticate env (some token) db = .ok context ↔ ∃ id secret record providers,
      parseToken token = some (id, secret) ∧ db.get id = some record ∧ record.revokedAt = none ∧
        record.secretHash = hashSecret env secret ∧
        ProviderAccess.fromJson env record.allowedProviders = .ok providers ∧
        context = ⟨some id, some record.name, providers⟩ := by
  rw [authenticate]
  cases hparse : parseToken token with
  | none => simp
  | some parts =>
    obtain ⟨id, secret⟩ := parts
    simp only [AccessDb.findKey]
    cases hget : db.get id with
    | none => simp [hget]
    | some record =>
      cases hrevoked : record.revokedAt with
      | some at' => simp [hget, hrevoked]
      | none =>
        by_cases hhash : record.secretHash = hashSecret env secret
        · cases hproviders : ProviderAccess.fromJson env record.allowedProviders with
          | error e => simp [hget, hrevoked, hhash, hproviders]
          | ok providers => simp [hget, hrevoked, hhash, hproviders, eq_comm]
        · simp [hget, hrevoked, hhash]

/-- A key that no later call has revoked. -/
def Live (env : Env) (calls : List Call) (ids : List String) (key : CreatedApiKey) : Prop :=
  ∃ rest, Created env calls ids key rest ∧ ∀ now, Call.revokeKey key.id now ∉ rest

/-- **Only the tokens of live keys are accepted**, for the providers of the key. -/
theorem authenticate_live (hsha : Function.Injective env.sha256)
    (hjson : ∀ l, env.jsonFromStr (env.jsonToString l) = some l) (calls : List Call)
    (token : String) (context : AccessContext) :
    authenticate env (some token) (after env calls) = .ok context ↔
      ∃ ids key, Live env calls ids key ∧ Str.trim token = key.token ∧ Grants ids key.providers ∧
        context = ⟨some key.id, some key.name, key.providers⟩ := by
  rw [authenticate_eq_ok]
  constructor
  · rintro ⟨id, secret, record, providers, hparse, hget, hlive, hhash, hproviders, rfl⟩
    obtain ⟨ids, key, rest, hcreated, rfl⟩ := created_of_get hget
    obtain ⟨record', hget', hrow⟩ := get_of_created hcreated
    rw [hget] at hget'
    cases hget'
    obtain ⟨secret', htoken, -, hhash'⟩ := hrow.hash
    obtain ⟨_, _, _, hcreates⟩ := hcreated.creates
    have hsecret : secret' = secret := hashSecret_inj hsha (hhash'.symm.trans hhash)
    rw [hrow.providers, fromJson_toJson hjson hcreates.grants] at hproviders
    cases hproviders
    refine ⟨ids, key, ⟨rest, hcreated, fun now hmem => ?_⟩, ?_, hcreates.grants, ?_⟩
    · have hsome := hrow.revoked.mpr ⟨now, hmem⟩
      rw [hlive] at hsome
      cases hsome
    · rw [(parseToken_eq_some.mp hparse).1, htoken, hsecret]
    · rw [hrow.name]
  · rintro ⟨ids, key, ⟨rest, hcreated, hlive⟩, htrim, hgrants, rfl⟩
    obtain ⟨record, hget, hrow⟩ := get_of_created hcreated
    obtain ⟨secret, htoken, hsecret, hhash⟩ := hrow.hash
    obtain ⟨_, _, _, hcreates⟩ := hcreated.creates
    refine ⟨key.id, secret, record, key.providers, parseToken_eq_some.mpr ⟨htrim.trans htoken,
      hcreates.hexId.no_underscore, hsecret.no_underscore, hcreates.hexId.size, hsecret.size⟩, hget,
      ?_, hhash, ?_, by rw [hrow.name]⟩
    · cases hrevoked : record.revokedAt with
      | none => rfl
      | some at' =>
        obtain ⟨now, hmem⟩ := hrow.revoked.mp (by rw [hrevoked]; rfl)
        exact absurd hmem (hlive now)
    · rw [hrow.providers]
      exact fromJson_toJson hjson hgrants

/-- The token is well formed, and a key with its id has been revoked. -/
def NamesRevoked (env : Env) (calls : List Call) (token : String) : Prop :=
  ∃ id secret ids key rest now, parseToken token = some (id, secret) ∧
    Created env calls ids key rest ∧ key.id = id ∧ Call.revokeKey id now ∈ rest

/-- What is not accepted is revoked, or invalid. -/
theorem authenticate_error {token : String}
    (h : ∀ context, authenticate env (some token) (after env calls) ≠ .ok context) :
    ∃ error, authenticate env (some token) (after env calls) = .error error ∧
      error ≠ .missing ∧ (error = .revoked ↔ NamesRevoked env calls token) := by
  have hnames : NamesRevoked env calls token ↔ ∃ id secret record, parseToken token = some (id, secret) ∧
      (after env calls).get id = some record ∧ record.revokedAt.isSome = true := by
    constructor
    · rintro ⟨id, secret, ids, key, rest, now, hparse, hcreated, rfl, hmem⟩
      obtain ⟨record, hget, hrow⟩ := get_of_created hcreated
      exact ⟨_, secret, record, hparse, hget, hrow.revoked.mpr ⟨now, hmem⟩⟩
    · rintro ⟨id, secret, record, hparse, hget, hrevoked⟩
      obtain ⟨ids, key, rest, hcreated, rfl⟩ := created_of_get hget
      obtain ⟨record', hget', hrow⟩ := get_of_created hcreated
      rw [hget] at hget'
      cases hget'
      obtain ⟨now, hmem⟩ := hrow.revoked.mp hrevoked
      exact ⟨_, secret, ids, key, rest, now, hparse, hcreated, rfl, hmem⟩
  rw [hnames]
  rw [authenticate] at h ⊢
  cases hparse : parseToken token with
  | none => exact ⟨.invalid, rfl, by decide, by simp⟩
  | some parts =>
    obtain ⟨id, secret⟩ := parts
    simp only [hparse, AccessDb.findKey] at h ⊢
    cases hget : (after env calls).get id with
    | none => exact ⟨.invalid, rfl, by decide, by simp [hget]⟩
    | some record =>
      simp only [hget] at h ⊢
      by_cases hrevoked : record.revokedAt.isSome = true
      · exact ⟨.revoked, by rw [if_pos hrevoked], by decide, by simp [hget, hrevoked]⟩
      · refine ⟨.invalid, ?_, by decide, by simp [hget, hrevoked]⟩
        rw [if_neg hrevoked] at h ⊢
        split_ifs at h ⊢
        · rfl
        · cases hproviders : ProviderAccess.fromJson env record.allowedProviders with
          | error e => rfl
          | ok providers =>
            rw [hproviders] at h
            exact absurd rfl (h _)

/-- **Who is authenticated, after any calls.** -/
theorem authenticate_run (hsha : Function.Injective env.sha256)
    (hjson : ∀ l, env.jsonFromStr (env.jsonToString l) = some l) (calls : List Call)
    (token : String) :
    (∀ context, authenticate env (some token) (after env calls) = .ok context ↔
      ∃ ids key, Live env calls ids key ∧ Str.trim token = key.token ∧ Grants ids key.providers ∧
        context = ⟨some key.id, some key.name, key.providers⟩) ∧
    ((∀ ids key, Live env calls ids key → Str.trim token ≠ key.token) →
      ∃ error, authenticate env (some token) (after env calls) = .error error ∧
        (error = .revoked ∧ NamesRevoked env calls token ∨
          error = .invalid ∧ ¬ NamesRevoked env calls token) ∧
        authenticationMessage error = "invalid API key") := by
  refine ⟨authenticate_live hsha hjson calls token, fun hother => ?_⟩
  obtain ⟨error, herror, hmissing, hrevoked⟩ := authenticate_error fun context hok => by
    obtain ⟨ids, key, hlive, htrim, -⟩ := (authenticate_live hsha hjson calls token context).mp hok
    exact hother ids key hlive htrim
  refine ⟨error, herror, ?_⟩
  cases error with
  | missing => exact absurd rfl hmissing
  | invalid => exact ⟨Or.inr ⟨rfl, fun hnames => (by cases hrevoked.mpr hnames)⟩, rfl⟩
  | revoked => exact ⟨Or.inl ⟨rfl, hrevoked.mp rfl⟩, rfl⟩

/-! A key for one provider, before and after it is revoked. -/

/-- Texts that stand for lists of strings, but for the one that is used. -/
def encodeStrings : List String → List Char
  | [] => []
  | s :: l => s.toList.flatMap (fun c => ['c', c]) ++ 'e' :: encodeStrings l

def decodeStrings : List Char → Option (List String)
  | [] => some []
  | 'e' :: cs => (decodeStrings cs).map ("" :: ·)
  | 'c' :: c :: cs =>
    match decodeStrings cs with
    | some (s :: l) => some (String.ofList (c :: s.toList) :: l)
    | _ => none
  | _ => none

theorem decodeStrings_encodeStrings (l : List String) :
    decodeStrings (encodeStrings l) = some l := by
  induction l with
  | nil => rfl
  | cons s l ih =>
    have hchars : ∀ cs : List Char,
        decodeStrings (cs.flatMap (fun c => ['c', c]) ++ 'e' :: encodeStrings l) =
          some (String.ofList cs :: l) := by
      intro cs
      induction cs with
      | nil =>
        show (decodeStrings (encodeStrings l)).map ("" :: ·) = _
        rw [ih]
        rfl
      | cons c cs ihc =>
        rw [List.flatMap_cons, List.append_assoc]
        show (match decodeStrings (cs.flatMap (fun c => ['c', c]) ++ 'e' :: encodeStrings l) with
          | some (s :: l) => some (String.ofList (c :: s.toList) :: l)
          | _ => none) = _
        rw [ihc]
        simp only [String.toList_ofList]
    rw [encodeStrings, hchars, String.ofList_toList]

def sampleUuid : Uuid :=
  ⟨"0123456789abcdef0123456789abcdef", rfl, Ascii.forall_mem_of_all (by decide)⟩

def sampleDraws : Fin 4 → KeyDraw := fun _ => ⟨sampleUuid, sampleUuid, sampleUuid⟩

def sampleSecret : String := "0123456789abcdef0123456789abcdef0123456789abcdef0123456789abcdef"

/-- The digest of the sample secret. -/
def sampleDigest : ByteArray := ⟨#[
    168, 174, 110, 110, 233, 41, 171, 234, 58, 252, 252, 82, 88, 200, 204, 214, 248, 82,
    115, 224, 212, 98, 109, 38, 199, 39, 159, 50, 80, 247, 124, 142]⟩

/-- The digest and the JSON of the sample; other values are only kept apart. -/
def sampleEnv : Env where
  sha256 := Equiv.swap sampleSecret.toUTF8 sampleDigest
  jsonToString l :=
    if l = ["openai"] then "[\"openai\"]" else String.ofList (encodeStrings l)
  jsonFromStr s :=
    if s = "[\"openai\"]" then some ["openai"] else decodeStrings s.toList

theorem sampleEnv_json (l : List String) :
    sampleEnv.jsonFromStr (sampleEnv.jsonToString l) = some l := by
  by_cases hl : l = ["openai"]
  · rw [hl]
    rfl
  · have hto : sampleEnv.jsonToString l = String.ofList (encodeStrings l) := if_neg hl
    have hne : String.ofList (encodeStrings l) ≠ "[\"openai\"]" := by
      intro h
      have hlist : encodeStrings l = "[\"openai\"]".toList := by rw [← h, String.toList_ofList]
      have hdecode := decodeStrings_encodeStrings l
      rw [hlist] at hdecode
      cases hdecode
    have hdecode : decodeStrings (String.ofList (encodeStrings l)).toList = some l := by
      rw [String.toList_ofList, decodeStrings_encodeStrings]
    rw [hto]
    exact (if_neg hne).trans hdecode

def sampleCall : Call := .createKey "client" ["openai"] 1700000000 sampleDraws

def sampleToken : String := formatToken "0123456789abcdef" sampleSecret

def sampleKey : CreatedApiKey :=
  ⟨"0123456789abcdef", "client", sampleToken, .only {"openai"}, 1700000000⟩

theorem live_sampleKey : Live sampleEnv [sampleCall] ["openai"] sampleKey :=
  ⟨[], ⟨[], _, _, _, rfl, rfl⟩, fun _ h => (by cases h)⟩

theorem grants_sampleKey : Grants ["openai"] sampleKey.providers :=
  fromProviderIds_eq_ok.mp rfl

theorem authenticate_run_sample :
    authenticate sampleEnv (some (" " ++ sampleToken)) (after sampleEnv [sampleCall]) =
      .ok ⟨some "0123456789abcdef", some "client", .only {"openai"}⟩ :=
  ((authenticate_run (Equiv.injective _) sampleEnv_json [sampleCall] (" " ++ sampleToken)).1 _).mpr
    ⟨["openai"], sampleKey, live_sampleKey, by decide +kernel, grants_sampleKey, rfl⟩

/-- A secret that belongs to no key. -/
def otherSecret : String := "ffffffffffffffffffffffffffffffffffffffffffffffffffffffffffffffff"

/-- The answer for a secret of no key depends on whether the key was revoked. -/
theorem revoked_without_secret :
    authenticate sampleEnv (some (formatToken "0123456789abcdef" otherSecret))
        (after sampleEnv [sampleCall]) = .error .invalid ∧
      authenticate sampleEnv (some (formatToken "0123456789abcdef" otherSecret))
        (after sampleEnv [sampleCall, .revokeKey "0123456789abcdef" 1700000001]) =
          .error .revoked := by
  decide +kernel

end Tokn.Access

import Tokn.Lib.PrefixFree
import Tokn.Lib.Utf8
import Tokn.Persistence.Semantic

/-!
# What the hashes of a session identify

The bytes that `hash_message` and `hash_prefix` hash tell messages and paths apart. The bytes that
`hash_part` hashes do not tell parts apart: the type of a part may have the separator in it.
-/

namespace Tokn.Persistence

/-! ## Parts -/

/-- What `hash_part` hashes. -/
def partBytes (part : PartRecord) : Bytes := Str.utf8Bytes part.partType ++ [0] ++ part.content

/-- The type of a part is that of another one, the separator and more, and the content of the other
one makes up for it. -/
def Ambiguous (part other : PartRecord) : Prop :=
  ∃ rest, Str.utf8Bytes part.partType = Str.utf8Bytes other.partType ++ 0 :: rest ∧
    other.content = rest ++ 0 :: part.content

theorem partBytes_eq_iff {part other : PartRecord} :
    partBytes part = partBytes other ↔
      part = other ∨ Ambiguous part other ∨ Ambiguous other part := by
  rw [partBytes, partBytes, List.append_assoc, List.append_assoc, List.singleton_append,
    List.singleton_append, append_cons_eq_append_cons, Str.utf8Bytes_injective.eq_iff]
  refine or_congr_left ?_
  obtain ⟨partType, content⟩ := part
  obtain ⟨partType', content'⟩ := other
  rw [PartRecord.mk.injEq]

theorem Ambiguous.ne {part other : PartRecord} (h : Ambiguous part other) : part ≠ other := by
  rintro rfl
  obtain ⟨rest, htype, -⟩ := h
  have hlength := congrArg List.length htype
  rw [List.length_append, List.length_cons] at hlength
  omega

/-! ## Digests -/

theorem digitChar_injOn : Set.InjOn Nat.digitChar {n | n < 16} := by
  have hall : ∀ m < 16, ∀ n < 16, Nat.digitChar m = Nat.digitChar n → m = n := by decide
  exact fun m hm n hn h => hall m hm n hn h

theorem hexByte_injective : Function.Injective hexByte := by
  intro a b h
  have ha := a.toNat_lt
  have hb := b.toNat_lt
  rw [hexByte, hexByte, List.cons.injEq, List.cons.injEq] at h
  have hhigh := digitChar_injOn (show a.toNat / 16 < 16 by omega) (show b.toNat / 16 < 16 by omega) h.1
  have hlow := digitChar_injOn (show a.toNat % 16 < 16 by omega) (show b.toNat % 16 < 16 by omega)
    h.2.1
  exact UInt8.toNat_inj.mp (by omega)

theorem encodeMessageId_injective : Function.Injective encodeMessageId := by
  intro a b h
  have hhex : PrefixFree Set.univ hexByte :=
    .of_length (n := 2) (fun _ => rfl) hexByte_injective.injOn
  have hlist := String.ofList_injective h
  rw [← List.append_nil (a.toList.flatMap hexByte), ← List.append_nil (b.toList.flatMap hexByte)]
    at hlist
  refine Vector.toList_inj.mp (hhex.flatMap ?_ (fun _ _ => trivial) (fun _ _ => trivial) hlist).1
  rw [Vector.length_toList, Vector.length_toList]

/-- **What a hash of a part says.** -/
theorem hashPart_injective_iff {sha256 : Bytes → MessageId} {part other : PartRecord}
    (hfree : sha256 (partBytes part) = sha256 (partBytes other) →
      partBytes part = partBytes other) :
    (hashPart sha256 part = hashPart sha256 other → part = other) ↔
      ¬Ambiguous part other ∧ ¬Ambiguous other part := by
  have hhash : hashPart sha256 part = hashPart sha256 other ↔ partBytes part = partBytes other :=
    encodeMessageId_injective.eq_iff.trans ⟨hfree, congrArg sha256⟩
  rw [hhash, partBytes_eq_iff]
  constructor
  · exact fun h => ⟨fun ha => ha.ne (h (Or.inr (Or.inl ha))),
      fun ha => ha.ne (h (Or.inr (Or.inr ha))).symm⟩
  · rintro ⟨hpart, hother⟩ (heq | h | h)
    · exact heq
    · exact absurd h hpart
    · exact absurd h hother

/-! ## Messages -/

/-- A length, as it is in memory. -/
def FitsLength (n : Nat) : Prop := n < 2 ^ 64

theorem length_beBytes (n : Nat) : (beBytes n).length = 8 := rfl

theorem beBytes_injOn : Set.InjOn beBytes {n | FitsLength n} := by
  intro m hm n hn h
  have hm' : m < 2 ^ 64 := hm
  have hn' : n < 2 ^ 64 := hn
  simp only [beBytes, List.map_cons, List.map_nil, List.cons.injEq, and_true,
    ← UInt8.toNat_inj, UInt8.toNat_ofNat'] at h
  obtain ⟨h7, h6, h5, h4, h3, h2, h1, h0⟩ := h
  omega

theorem lenPrefixed_prefixFree : PrefixFree {value | FitsLength value.length} lenPrefixed := by
  intro a ha b hb x y h
  have hlen : PrefixFree {n | FitsLength n} beBytes := .of_length length_beBytes beBytes_injOn
  rw [lenPrefixed, lenPrefixed, List.append_assoc, List.append_assoc] at h
  obtain ⟨hlength, hrest⟩ := hlen _ ha _ hb _ _ h
  exact List.append_inj hrest hlength

/-- A part whose lengths fit. -/
def PartRecord.Fits (part : PartRecord) : Prop :=
  FitsLength (Str.utf8Bytes part.partType).length ∧ FitsLength part.content.length

/-- A message whose lengths fit. -/
structure MessageRecord.Fits (message : MessageRecord) : Prop where
  role : FitsLength (Str.utf8Bytes message.role).length
  count : FitsLength message.parts.length
  parts : ∀ part ∈ message.parts, part.Fits

/-- The bytes of a status in a message. -/
def statusBytes (status : Option UInt16) : Bytes :=
  match status with
  | some status => [1, UInt8.ofNat (status.toNat / 256), UInt8.ofNat status.toNat]
  | none => [0]

theorem statusBytes_prefixFree : PrefixFree Set.univ statusBytes := by
  intro a _ b _ x y h
  cases a with
  | none =>
    cases b with
    | none => exact ⟨rfl, (List.cons.inj h).2⟩
    | some b => exact absurd (List.cons.inj h).1 (by decide)
  | some a =>
    cases b with
    | none => exact absurd (List.cons.inj h).1 (by decide)
    | some b =>
      simp only [statusBytes, List.cons_append, List.nil_append, List.cons.injEq, true_and,
        ← UInt8.toNat_inj, UInt8.toNat_ofNat'] at h
      obtain ⟨hhigh, hlow, hrest⟩ := h
      have ha := a.toNat_lt
      have hb := b.toNat_lt
      exact ⟨congrArg some (UInt16.toNat_inj.mp (by omega)), hrest⟩

/-- The bytes of a part in a message. -/
def prefixedPart (part : PartRecord) : Bytes :=
  lenPrefixed (Str.utf8Bytes part.partType) ++ lenPrefixed part.content

theorem prefixedPart_prefixFree : PrefixFree {part | PartRecord.Fits part} prefixedPart := by
  refine (lenPrefixed_prefixFree.append lenPrefixed_prefixFree).comp
    (e := fun part : PartRecord => (Str.utf8Bytes part.partType, part.content))
    (fun part h => h) ?_
  rintro ⟨partType, content⟩ - ⟨partType', content'⟩ - h
  rw [Prod.mk.injEq, Str.utf8Bytes_injective.eq_iff] at h
  rw [PartRecord.mk.injEq]
  exact h

/-- The bytes of a message before its parts. -/
def messageHead (message : MessageRecord) : Bytes :=
  lenPrefixed (Str.utf8Bytes message.role) ++ statusBytes message.status ++
    beBytes message.parts.length

theorem messageBytes_eq (message : MessageRecord) :
    messageBytes message = (Str.utf8Bytes "tokn:session-message:v1" ++ [0]) ++
      (messageHead message ++ message.parts.flatMap prefixedPart) := by
  simp only [messageHead, List.append_assoc]
  rw [messageBytes, List.append_assoc, List.append_assoc, List.append_assoc, List.append_assoc]
  rfl

/-- **Messages are told apart.** -/
theorem messageBytes_injOn : Set.InjOn messageBytes {message | message.Fits} := by
  rintro ⟨role, status, parts⟩ ha ⟨role', status', parts'⟩ hb h
  have hcount : PrefixFree {n | FitsLength n} beBytes := .of_length length_beBytes beBytes_injOn
  have hhead := (lenPrefixed_prefixFree.append statusBytes_prefixFree).append hcount
  rw [messageBytes_eq, messageBytes_eq] at h
  obtain ⟨hfields, hrest⟩ := hhead ((Str.utf8Bytes role, status), parts.length)
    ⟨⟨ha.role, trivial⟩, ha.count⟩ ((Str.utf8Bytes role', status'), parts'.length)
    ⟨⟨hb.role, trivial⟩, hb.count⟩ _ _ (List.append_cancel_left h)
  rw [Prod.mk.injEq, Prod.mk.injEq, Str.utf8Bytes_injective.eq_iff] at hfields
  obtain ⟨⟨rfl, rfl⟩, hlength⟩ := hfields
  rw [← List.append_nil (List.flatMap _ parts), ← List.append_nil (List.flatMap _ parts')] at hrest
  obtain ⟨rfl, -⟩ := prefixedPart_prefixFree.flatMap hlength ha.parts hb.parts hrest
  rfl

/-! ## Paths -/

/-- The bytes of a parent in a path. -/
def parentBytes : Option MessageId → Bytes
  | some parentId => 1 :: parentId.toList
  | none => [0]

theorem messageId_prefixFree : PrefixFree Set.univ fun id : MessageId => id.toList :=
  .of_length (n := 32) (fun id => id.length_toList) fun _ _ _ _ h => Vector.toList_inj.mp h

theorem parentBytes_prefixFree : PrefixFree Set.univ parentBytes := by
  intro a _ b _ x y h
  cases a with
  | none =>
    cases b with
    | none => exact ⟨rfl, (List.cons.inj h).2⟩
    | some b => exact absurd (List.cons.inj h).1 (by decide)
  | some a =>
    cases b with
    | none => exact absurd (List.cons.inj h).1 (by decide)
    | some b =>
      obtain ⟨rfl, hrest⟩ := messageId_prefixFree a trivial b trivial x y (List.cons.inj h).2
      exact ⟨rfl, hrest⟩

/-- What `hash_prefix` hashes. -/
def prefixBytes (parentId : Option MessageId) (messageHash : MessageId) : Bytes :=
  Str.utf8Bytes "tokn:session-prefix:v1" ++ [0] ++ parentBytes parentId ++ messageHash.toList

theorem hashPrefix_eq (sha256 : Bytes → MessageId) (parentId : Option MessageId)
    (messageHash : MessageId) :
    hashPrefix sha256 parentId messageHash = sha256 (prefixBytes parentId messageHash) := by
  cases parentId <;> rfl

/-- **Paths are told apart.** -/
theorem prefixBytes_injective {parentId parentId' : Option MessageId}
    {messageHash messageHash' : MessageId}
    (h : prefixBytes parentId messageHash = prefixBytes parentId' messageHash') :
    parentId = parentId' ∧ messageHash = messageHash' := by
  rw [prefixBytes, prefixBytes, List.append_assoc _ (parentBytes parentId),
    List.append_assoc _ (parentBytes parentId')] at h
  obtain ⟨rfl, hrest⟩ := parentBytes_prefixFree parentId trivial parentId' trivial _ _
    (List.append_cancel_left h)
  exact ⟨rfl, Vector.toList_inj.mp hrest⟩

end Tokn.Persistence

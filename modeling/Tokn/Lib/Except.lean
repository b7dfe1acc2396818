import Tokn.Lib.BTreeMap

/-!
# Computations that may fail

When a sequence of fallible steps succeeds, each of its steps did. `foldlM_induction` is the
induction over the steps of a fold that succeeds.
-/

namespace Tokn.Except

universe u v

variable {ε ι : Type*} {α β : Type u}

variable {x : Except ε α} {is : List ι} {e : ε}

theorem bind_eq_ok {f : α → Except ε β} {b : β} :
    (x >>= f) = .ok b ↔ ∃ a, x = .ok a ∧ f a = .ok b := by
  cases x with
  | error e =>
    refine ⟨fun h => (by cases h), ?_⟩
    rintro ⟨a, h, -⟩
    cases h
  | ok a =>
    refine ⟨fun h => ⟨a, rfl, h⟩, ?_⟩
    rintro ⟨a', ha, hf⟩
    cases ha
    exact hf

/-- A step without a result fails, or what follows it does. -/
theorem exists_bind_eq_error {x : Except ε PUnit} {f : PUnit → Except ε α} :
    (∃ e, (x >>= f) = .error e) ↔ (∃ e, x = .error e) ∨ ∃ e, f ⟨⟩ = .error e := by
  cases x with
  | error e => exact iff_of_true ⟨e, rfl⟩ (.inl ⟨e, rfl⟩)
  | ok _ => simp [bind, Except.bind]

theorem map_eq_ok {γ : Type v} {f : α → γ} {b : γ} :
    x.map f = .ok b ↔ ∃ a, x = .ok a ∧ f a = b := by
  cases x with
  | error e => exact iff_of_false nofun (fun ⟨_, h, _⟩ => nomatch h)
  | ok a => simp [Except.map]

theorem mapError_eq_ok {ε' : Type*} {f : ε → ε'} {a : α} : x.mapError f = .ok a ↔ x = .ok a := by
  cases x with
  | error e => simp [Except.mapError]
  | ok b => simp [Except.mapError]

theorem exists_eq_ok (h : x.isOk = true) : ∃ a, x = .ok a := by
  cases x with
  | error e => cases h
  | ok a => exact ⟨a, rfl⟩

theorem foldlM_concat {f : α → ι → Except ε α} {a b : α} {i : ι} :
    (is ++ [i]).foldlM f a = .ok b ↔ ∃ c, is.foldlM f a = .ok c ∧ f c i = .ok b := by
  rw [List.foldlM_append, bind_eq_ok]
  refine exists_congr fun c => and_congr_right fun _ => ?_
  rw [List.foldlM_cons, bind_eq_ok]
  constructor
  · rintro ⟨d, hd, hb⟩
    cases hb
    exact hd
  · exact fun h => ⟨b, h, rfl⟩

/-- **The induction over a fold that succeeds.** -/
theorem foldlM_induction {f : α → ι → Except ε α} {a : α} (P : List ι → α → Prop) (nil : P [] a)
    (concat : ∀ is i b c, is.foldlM f a = .ok b → P is b → f b i = .ok c → P (is ++ [i]) c) {b : α}
    (h : is.foldlM f a = .ok b) : P is b := by
  induction is using List.reverseRecOn generalizing b with
  | nil =>
    cases h
    exact nil
  | append_singleton is i ih =>
    obtain ⟨c, hc, hb⟩ := foldlM_concat.mp h
    exact concat is i c b hc (ih hc) hb

/-- What every step keeps. -/
theorem foldlM_invariant {f : α → ι → Except ε α} {a : α} (I : α → Prop) (init : I a)
    (keep : ∀ b i c, I b → f b i = .ok c → I c) {b : α} (h : is.foldlM f a = .ok b) : I b :=
  foldlM_induction (fun _ => I) init (fun _ i b c _ hb hc => keep b i c hb hc) h

/-- A fold that fails does so at one of its steps. -/
theorem foldlM_error {f : α → ι → Except ε α} {a : α} (h : is.foldlM f a = .error e) :
    ∃ before i after b, is = before ++ i :: after ∧ before.foldlM f a = .ok b ∧
      f b i = .error e := by
  induction is generalizing a with
  | nil => cases h
  | cons i is ih =>
    rw [List.foldlM_cons] at h
    cases hstep : f a i with
    | error e' =>
      rw [hstep] at h
      cases h
      exact ⟨[], i, is, a, rfl, rfl, hstep⟩
    | ok a' =>
      rw [hstep] at h
      obtain ⟨before, j, after, b, his, hbefore, herror⟩ := ih h
      refine ⟨i :: before, j, after, b, by rw [his, List.cons_append], ?_, herror⟩
      rw [List.foldlM_cons, hstep]
      exact hbefore

/-- A computation for each of the values succeeds. -/
theorem forM_eq_ok {f : ι → Except ε PUnit.{u + 1}} {r : PUnit.{u + 1}} :
    is.forM f = .ok r ↔ ∀ i ∈ is, f i = .ok ⟨⟩ := by
  induction is with
  | nil => exact ⟨fun _ i hi => (by cases hi), fun _ => rfl⟩
  | cons i is ih =>
    rw [List.forM.eq_2, bind_eq_ok, List.forall_mem_cons]
    constructor
    · intro h
      obtain ⟨_, hi, his⟩ := h
      exact ⟨hi, ih.mp his⟩
    · intro h
      exact ⟨⟨⟩, h.1, ih.mpr h.2⟩

/-- Each element of a list is related to one of the other. -/
theorem exists_of_forall₂ {κ μ : Type*} {r : κ → μ → Prop} {l : List κ} {l' : List μ}
    (h : List.Forall₂ r l l') {a : κ} (ha : a ∈ l) : ∃ b ∈ l', r a b := by
  induction h with
  | nil => cases ha
  | cons hab _ ih =>
    rcases List.mem_cons.mp ha with rfl | ha
    · exact ⟨_, List.mem_cons_self, hab⟩
    · obtain ⟨b, hb, hr⟩ := ih ha
      exact ⟨b, List.mem_cons_of_mem _ hb, hr⟩

/-- A sequence of computations succeeds when each of them does. -/
theorem mapM_eq_ok {f : ι → Except ε β} {bs : List β} :
    is.mapM f = .ok bs ↔ List.Forall₂ (fun i b => f i = .ok b) is bs := by
  induction is generalizing bs with
  | nil =>
    rw [List.forall₂_nil_left_iff]
    exact ⟨fun h => (by cases h; rfl), fun h => (by rw [h]; rfl)⟩
  | cons i is ih =>
    rw [List.mapM_cons, bind_eq_ok]
    constructor
    · intro h
      obtain ⟨b, hb, h⟩ := h
      obtain ⟨bs', hbs, h⟩ := bind_eq_ok.mp h
      cases h
      exact List.Forall₂.cons hb (ih.mp hbs)
    · intro h
      cases h with
      | cons hb hbs => exact ⟨_, hb, bind_eq_ok.mpr ⟨_, ih.mpr hbs, rfl⟩⟩

/-- The entries of a map, computed one by one under their keys. -/
theorem get_mapM {κ : Type*} {ν μ : Type u} {f : κ × ν → Except ε (κ × μ)} [DecidableEq κ]
    (hkey : ∀ e r, f e = .ok r → r.1 = e.1) {m : BTreeMap κ ν} {m' : BTreeMap κ μ}
    (h : m.mapM f = .ok m') {k : κ} {v : ν} (hget : m.get k = some v) :
    ∃ w, m'.get k = some w ∧ f (k, v) = .ok (k, w) := by
  induction mapM_eq_ok.mp h with
  | nil => cases hget
  | @cons e r m m' hstep hrest ih =>
    obtain ⟨l, u⟩ := e
    obtain ⟨l', w⟩ := r
    obtain rfl : l' = l := hkey _ _ hstep
    rw [BTreeMap.get_cons] at hget
    by_cases hk : k = l'
    · rw [if_pos hk] at hget
      obtain rfl := Option.some.inj hget
      subst hk
      exact ⟨w, by rw [BTreeMap.get_cons, if_pos rfl], hstep⟩
    · rw [if_neg hk] at hget
      obtain ⟨w', hw', hf⟩ := ih (mapM_eq_ok.mpr hrest) hget
      exact ⟨w', by rw [BTreeMap.get_cons, if_neg hk, hw'], hf⟩

theorem map_fst_mapM {κ : Type*} {ν μ : Type u} {f : κ × ν → Except ε (κ × μ)}
    (hkey : ∀ e r, f e = .ok r → r.1 = e.1) {m : BTreeMap κ ν} {m' : BTreeMap κ μ}
    (h : m.mapM f = .ok m') : m'.map Prod.fst = m.map Prod.fst := by
  induction mapM_eq_ok.mp h with
  | nil => rfl
  | cons hstep hrest ih =>
    rw [List.map_cons, List.map_cons, hkey _ _ hstep, ih (mapM_eq_ok.mpr hrest)]

/-- What a sequence of computations gives, one of them gave. -/
theorem mem_of_mapM_eq_ok {f : ι → Except ε β} {bs : List β} (h : is.mapM f = .ok bs) {b : β}
    (hb : b ∈ bs) : ∃ i ∈ is, f i = .ok b := by
  induction is generalizing bs with
  | nil =>
    cases h
    cases hb
  | cons i is ih =>
    rw [List.mapM_cons] at h
    obtain ⟨c, hc, h⟩ := bind_eq_ok.mp h
    obtain ⟨cs, hcs, h⟩ := bind_eq_ok.mp h
    cases h
    rcases List.mem_cons.mp hb with rfl | hb
    · exact ⟨i, List.mem_cons_self, hc⟩
    · obtain ⟨j, hj, hfj⟩ := ih hcs hb
      exact ⟨j, List.mem_cons_of_mem _ hj, hfj⟩

/-- The computation fails only in ways that the predicate allows. -/
def Fails (P : ε → Prop) (x : Except ε α) : Prop := ∀ e, x = .error e → P e

theorem fails_ok {P : ε → Prop} (a : α) : Fails P (Except.ok a : Except ε α) := by
  intro e h
  cases h

theorem fails_error {P : ε → Prop} (h : P e) : Fails P (Except.error e : Except ε α) := by
  intro e' h'
  cases h'
  exact h

theorem Fails.bind {P : ε → Prop} {f : α → Except ε β} (hx : Fails P x)
    (hf : ∀ a, x = .ok a → Fails P (f a)) : Fails P (x >>= f) := by
  cases x with
  | error e => exact fun e' h => hx e' (by cases h; rfl)
  | ok a => exact hf a rfl

/-- Fail if the condition holds. -/
def rejectIf (bad : Bool) (e : ε) : Except ε PUnit.{u + 1} := if bad then .error e else .ok ⟨⟩

theorem rejectIf_eq_ok {bad : Bool} {u : PUnit.{u + 1}} : rejectIf bad e = .ok u ↔ bad = false := by
  cases bad with
  | false => exact ⟨fun _ => rfl, fun _ => rfl⟩
  | true => exact ⟨fun h => (by cases h), fun h => (by cases h)⟩

theorem fails_rejectIf {P : ε → Prop} {bad : Bool} (h : P e) : Fails P (rejectIf.{u} bad e) := by
  cases bad with
  | false => exact fails_ok _
  | true => exact fails_error h

theorem fails_rejectIf_bind {P : ε → Prop} {bad : Bool} {f : PUnit → Except ε β} (h : P e)
    (hf : Fails P (f ⟨⟩)) : Fails P (rejectIf bad e >>= f) :=
  (fails_rejectIf h).bind fun _ _ => hf

theorem Fails.mapM {P : ε → Prop} {f : ι → Except ε α} (h : ∀ i, Fails P (f i)) (is : List ι) :
    Fails P (is.mapM f) := by
  induction is with
  | nil => exact fails_ok _
  | cons i is ih =>
    rw [List.mapM_cons]
    exact (h i).bind fun _ _ => ih.bind fun _ _ => fails_ok _

theorem Fails.forM {P : ε → Prop} {f : ι → Except ε PUnit.{u + 1}} {is : List ι}
    (h : ∀ i ∈ is, Fails P (f i)) : Fails P (is.forM f) := by
  induction is with
  | nil => exact fails_ok _
  | cons i is ih =>
    rw [List.forM.eq_2]
    exact (h i List.mem_cons_self).bind fun _ _ => ih fun j hj => h j (List.mem_cons_of_mem _ hj)

/-- A computation that fails otherwise than its first step can fail has taken that step. -/
theorem bind_error {P : ε → Prop} {f : α → Except ε β} (h : (x >>= f) = .error e) (hx : Fails P x)
    (he : ¬ P e) : ∃ a, x = .ok a ∧ f a = .error e := by
  cases x with
  | error e' =>
    cases h
    exact absurd (hx e rfl) he
  | ok a => exact ⟨a, rfl, h⟩

theorem Fails.foldlM {P : ε → Prop} {f : α → ι → Except ε α} (h : ∀ a i, Fails P (f a i))
    (is : List ι) (a : α) : Fails P (is.foldlM f a) := by
  intro e he
  obtain ⟨-, i, -, b, -, -, herror⟩ := foldlM_error he
  exact h b i e herror

end Tokn.Except

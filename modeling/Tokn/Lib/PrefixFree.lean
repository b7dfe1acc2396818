import Mathlib.Tactic

/-!
# Encodings that end by themselves

An encoding is prefix-free on some values if their codes can be split off whatever follows. Codes of
one length are, and what is put together of prefix-free parts.
-/

namespace Tokn

variable {α β γ : Type*}

/-- The code of a value is known from any text that starts with it. -/
def PrefixFree (s : Set α) (f : α → List β) : Prop :=
  ∀ a ∈ s, ∀ b ∈ s, ∀ x y, f a ++ x = f b ++ y → a = b ∧ x = y

namespace PrefixFree

theorem of_length {s : Set α} {f : α → List β} {n : Nat} (hlen : ∀ a, (f a).length = n)
    (hinj : Set.InjOn f s) : PrefixFree s f := by
  intro a ha b hb x y h
  obtain ⟨hcode, hrest⟩ := List.append_inj h ((hlen a).trans (hlen b).symm)
  exact ⟨hinj ha hb hcode, hrest⟩

/-- A part, and another one after it. -/
theorem append {s : Set α} {t : Set γ} {f : α → List β} {g : γ → List β} (hf : PrefixFree s f)
    (hg : PrefixFree t g) : PrefixFree (s ×ˢ t) fun p => f p.1 ++ g p.2 := by
  rintro ⟨a, c⟩ ⟨ha, hc⟩ ⟨a', c'⟩ ⟨ha', hc'⟩ x y h
  dsimp only at h
  rw [List.append_assoc, List.append_assoc] at h
  obtain ⟨rfl, hrest⟩ := hf a ha a' ha' _ _ h
  obtain ⟨rfl, rfl⟩ := hg c hc c' hc' _ _ hrest
  exact ⟨rfl, rfl⟩

/-- Values that are told apart by what is encoded of them. -/
theorem comp {s : Set α} {t : Set γ} {g : γ → List β} (hg : PrefixFree t g) {e : α → γ}
    (hmaps : Set.MapsTo e s t) (hinj : Set.InjOn e s) : PrefixFree s fun a => g (e a) := by
  intro a ha b hb x y h
  obtain ⟨hcode, hrest⟩ := hg _ (hmaps ha) _ (hmaps hb) x y h
  exact ⟨hinj ha hb hcode, hrest⟩

/-- Two lists of one length. -/
theorem flatMap {s : Set α} {f : α → List β} (hf : PrefixFree s f) {l l' : List α}
    (hlen : l.length = l'.length) (hl : ∀ a ∈ l, a ∈ s) (hl' : ∀ a ∈ l', a ∈ s) {x y : List β}
    (h : l.flatMap f ++ x = l'.flatMap f ++ y) : l = l' ∧ x = y := by
  induction l generalizing l' with
  | nil =>
    obtain rfl := List.length_eq_zero_iff.mp hlen.symm
    exact ⟨rfl, h⟩
  | cons a l ih =>
    obtain ⟨b, l', rfl⟩ := List.exists_cons_of_length_eq_add_one hlen.symm
    obtain ⟨ha, hrestl⟩ := List.forall_mem_cons.mp hl
    obtain ⟨hb, hrestl'⟩ := List.forall_mem_cons.mp hl'
    rw [List.flatMap_cons, List.flatMap_cons, List.append_assoc, List.append_assoc] at h
    obtain ⟨rfl, hrest⟩ := hf a ha b hb _ _ h
    obtain ⟨rfl, rfl⟩ := ih (Nat.succ.inj hlen) hrestl hrestl' hrest
    exact ⟨rfl, rfl⟩

/-- A code that starts with the code of a value is that of a list that starts with the value. -/
theorem flatMap_eq_append {f : α → List β} (hf : PrefixFree Set.univ f) {l : List α} {a : α}
    {x : List β} (h : l.flatMap f = f a ++ x) (hne : f a ≠ []) :
    ∃ l', l = a :: l' ∧ l'.flatMap f = x := by
  cases l with
  | nil => exact absurd (List.append_eq_nil_iff.mp h.symm).1 hne
  | cons b l =>
    obtain ⟨rfl, hrest⟩ := hf b (Set.mem_univ b) a (Set.mem_univ a) _ _ h
    exact ⟨l, rfl, hrest⟩

end PrefixFree

/-! ## Codes that begin in one way -/

/-- A code begins with a symbol that occurs nowhere else in a code. -/
def Synchronized (first : β → Prop) (f : α → List β) : Prop :=
  ∀ a, ∃ b rest, f a = b :: rest ∧ first b ∧ ∀ c ∈ rest, ¬first c

namespace Synchronized

variable {first : β → Prop} {f : α → List β}

theorem ne_nil (h : Synchronized first f) (a : α) : f a ≠ [] := by
  obtain ⟨b, rest, hcode, -⟩ := h a
  exact ne_of_eq_of_ne hcode (List.cons_ne_nil b rest)

theorem flatMap_eq_nil (h : Synchronized first f) {l : List α} : l.flatMap f = [] ↔ l = [] := by
  cases l with
  | nil => exact iff_of_true rfl rfl
  | cons a l =>
    refine iff_of_false ?_ (List.cons_ne_nil a l)
    intro hnil
    exact h.ne_nil a (List.append_eq_nil_iff.mp hnil).1

/-- Where a symbol is first, the code of a value begins. -/
theorem split (h : Synchronized first f) {b : β} (hb : first b) {l : List α} {x y : List β}
    (hl : l.flatMap f = x ++ b :: y) :
    ∃ u v, l = u ++ v ∧ u.flatMap f = x ∧ v.flatMap f = b :: y := by
  induction l generalizing x with
  | nil => exact absurd hl.symm (List.append_ne_nil_of_right_ne_nil x (List.cons_ne_nil b y))
  | cons a l ih =>
    cases x with
    | nil => exact ⟨[], a :: l, rfl, rfl, hl⟩
    | cons b' x =>
      obtain ⟨b₀, rest, hcode, -, hrest⟩ := h a
      have hcons : b₀ :: (rest ++ l.flatMap f) = b' :: (x ++ b :: y) := by
        rw [← List.cons_append, ← hcode, ← List.flatMap_cons, hl, List.cons_append]
      obtain ⟨rfl, htail⟩ := List.cons.inj hcons
      have hafter : ∃ x', x = rest ++ x' ∧ l.flatMap f = x' ++ b :: y := by
        obtain ⟨x', hx, hl'⟩ | ⟨c, hc, hl'⟩ := List.append_eq_append_iff.mp htail
        · exact ⟨x', hx, hl'⟩
        · cases c with
          | nil => exact ⟨[], by simpa using hc.symm, hl'.symm⟩
          | cons c cs =>
            obtain ⟨rfl, -⟩ := List.cons.inj hl'
            exact absurd hb (hrest b (hc ▸ List.mem_append_right x List.mem_cons_self))
      obtain ⟨x', rfl, hl'⟩ := hafter
      obtain ⟨u, v, rfl, hu, hv⟩ := ih hl'
      refine ⟨a :: u, v, rfl, ?_, hv⟩
      rw [List.flatMap_cons, hcode, hu, List.cons_append]

end Synchronized

/-! ## Separators -/

/-- The ways to split a text at a separator. -/
theorem append_cons_eq_append_cons {c : α} {a b x y : List α} :
    a ++ c :: x = b ++ c :: y ↔ a = b ∧ x = y ∨ (∃ rest, a = b ++ c :: rest ∧ y = rest ++ c :: x) ∨
      ∃ rest, b = a ++ c :: rest ∧ x = rest ++ c :: y := by
  rw [List.append_eq_append_iff]
  constructor
  · rintro (⟨rest, rfl, hrest⟩ | ⟨rest, rfl, hrest⟩)
    · cases rest with
      | nil =>
        cases hrest
        exact Or.inl ⟨(List.append_nil _).symm, rfl⟩
      | cons d rest =>
        cases hrest
        exact Or.inr (Or.inr ⟨rest, rfl, rfl⟩)
    · cases rest with
      | nil =>
        cases hrest
        exact Or.inl ⟨List.append_nil _, rfl⟩
      | cons d rest =>
        cases hrest
        exact Or.inr (Or.inl ⟨rest, rfl, rfl⟩)
  · rintro (⟨rfl, rfl⟩ | ⟨rest, rfl, rfl⟩ | ⟨rest, rfl, rfl⟩)
    · exact Or.inl ⟨[], (List.append_nil _).symm, rfl⟩
    · exact Or.inr ⟨c :: rest, rfl, rfl⟩
    · exact Or.inl ⟨c :: rest, rfl, rfl⟩

end Tokn

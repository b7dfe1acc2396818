import Mathlib.Tactic

/-!
# Least recently used

A cache of a few keys keeps them in the order of their last uses and, when it is full, lets go of
the first one. Its history says which keys were asked for, with or without success, and which were
closed by hand. `recency` is the keys whose last entry is a use, by that use: what a cache without
bounds would hold. **A bounded cache holds an end of it**, and a key is missing only once as many
other keys as the cache has room for have been asked for (`Recent`).
-/

namespace Tokn.Recency

variable {α : Type*}

/-- What happens to a key: it is asked for, successfully or not, or it is closed. -/
inductive Entry (α : Type*) where
  | used (key : α)
  | failed (key : α)
  | closed (key : α)
  deriving DecidableEq

variable [DecidableEq α]

/-- The keys without one. -/
def without (key : α) (keys : List α) : List α := keys.filter fun k => k ≠ key

@[simp] theorem mem_without {key k : α} {keys : List α} :
    k ∈ without key keys ↔ k ∈ keys ∧ k ≠ key := by
  simp [without]

theorem without_of_notMem {key : α} {keys : List α} (h : key ∉ keys) : without key keys = keys := by
  rw [without, List.filter_eq_self]
  intro k hk
  simpa using fun hkey : k = key => h (hkey ▸ hk)

theorem length_without_lt {key : α} {keys : List α} (h : key ∈ keys) :
    (without key keys).length < keys.length := by
  rw [without, List.length_filter_lt_length_iff_exists]
  exact ⟨key, h, by simp⟩

theorem without_suffix {key : α} {keys keys' : List α} (h : keys <:+ keys') :
    without key keys <:+ without key keys' := by
  obtain ⟨before, rfl⟩ := h
  exact ⟨without key before, by simp [without]⟩

/-- What an entry does to the keys by their last uses. -/
def recencyStep (keys : List α) : Entry α → List α
  | .used key => without key keys ++ [key]
  | .failed key => without key keys
  | .closed key => without key keys

/-- The keys whose last entry is a use, by that use. -/
def recency (log : List (Entry α)) : List α := log.foldl recencyStep []

/-- What an entry adds to the other keys that have been asked for since a use of `key`. -/
def askedStep (key : α) (asked : Finset α) : Entry α → Finset α
  | .used k => if k = key then ∅ else insert k asked
  | .failed k => if k = key then asked else insert k asked
  | .closed _ => asked

/-- The other keys that have been asked for since the last use of `key`. -/
def askedSince (key : α) (log : List (Entry α)) : Finset α := log.foldl (askedStep key) ∅

@[simp] theorem recency_concat (log : List (Entry α)) (e : Entry α) :
    recency (log ++ [e]) = recencyStep (recency log) e := by
  simp [recency]

@[simp] theorem askedSince_concat (key : α) (log : List (Entry α)) (e : Entry α) :
    askedSince key (log ++ [e]) = askedStep key (askedSince key log) e := by
  simp [askedSince]

/-! ## A cache -/

/-- A cache of `cap` keys, by their last uses, after a history. -/
structure Recent (cap : Nat) (log : List (Entry α)) (order : List α) : Prop where
  nodup : order.Nodup
  length_le : order.length ≤ cap
  suffix : order <:+ recency log
  asked : order.Pairwise fun key later => later ∈ askedSince key log
  missing : ∀ key ∈ recency log, key ∉ order → cap ≤ (askedSince key log).card

/-- The other keys that are left when a key is asked for. -/
def kept (cap : Nat) (key : α) (order : List α) : List α :=
  if key ∈ order ∨ order.length < cap then without key order else order.drop 1

theorem kept_sublist (cap : Nat) (key : α) (order : List α) :
    (kept cap key order).Sublist order := by
  rw [kept]
  split_ifs
  · exact List.filter_sublist
  · exact List.drop_sublist 1 order

theorem notMem_kept {cap : Nat} {key : α} {order : List α} : key ∉ kept cap key order := by
  rw [kept]
  split_ifs with h
  · simp
  · rw [not_or] at h
    exact fun hmem => h.1 (List.mem_of_mem_drop hmem)

theorem recent_nil (cap : Nat) : Recent cap ([] : List (Entry α)) [] :=
  ⟨List.nodup_nil, Nat.zero_le cap, List.suffix_rfl, List.Pairwise.nil, by simp [recency]⟩

namespace Recent

variable {cap : Nat} {log : List (Entry α)} {order : List α}

theorem length_kept_lt (h : Recent cap log order) (hcap : 0 < cap) (key : α) :
    (kept cap key order).length < cap := by
  have hle := h.length_le
  rw [kept]
  split_ifs with hroom
  · obtain hmem | hlt := hroom
    · exact Nat.lt_of_lt_of_le (length_without_lt hmem) hle
    · exact Nat.lt_of_le_of_lt (List.length_filter_le _ order) hlt
  · rw [List.length_drop]
    omega

theorem kept_suffix (h : Recent cap log order) (key : α) :
    kept cap key order <:+ without key (recency log) := by
  rw [kept]
  split_ifs with hroom
  · exact without_suffix h.suffix
  · rw [not_or] at hroom
    have hsuffix := @without_suffix _ _ key _ _ h.suffix
    rw [without_of_notMem hroom.1] at hsuffix
    exact (List.drop_suffix 1 order).trans hsuffix

theorem asked_kept (h : Recent cap log order) {key : α} {e : Entry α}
    (he : ∀ k ≠ key, askedSince k log ⊆ askedSince k (log ++ [e])) :
    (kept cap key order).Pairwise fun k later => later ∈ askedSince k (log ++ [e]) := by
  have hne : (kept cap key order).Pairwise fun k _ => k ≠ key :=
    List.pairwise_of_forall_mem_list fun k hk _ _ => fun hkey => notMem_kept (hkey ▸ hk)
  refine ((h.asked.sublist (kept_sublist cap key order)).and hne).imp ?_
  rintro k later ⟨hlater, hk⟩
  exact he k hk hlater

/-- Where a key is let go of, as many others as there is room for have been asked for. -/
theorem le_card_of_notMem_kept (h : Recent cap log order) {key k : α} (hk : k ≠ key)
    (hmem : k ∈ recency log) (hgone : k ∉ kept cap key order) :
    cap ≤ (insert key (askedSince k log)).card := by
  by_cases horder : k ∈ order
  · -- `k` was the first of a full cache that did not have `key`
    rw [kept] at hgone
    split_ifs at hgone with hroom
    · exact absurd (mem_without.mpr ⟨horder, hk⟩) hgone
    · rw [not_or] at hroom
      cases order with
      | nil => cases horder
      | cons first rest =>
        obtain rfl : k = first := by
          obtain hfirst | hrest := List.mem_cons.mp horder
          · exact hfirst
          · exact absurd hrest hgone
        have hasked : insert key rest.toFinset ⊆ insert key (askedSince k log) := by
          refine Finset.insert_subset_insert key ?_
          intro later hlater
          exact (List.pairwise_cons.mp h.asked).1 later (List.mem_toFinset.mp hlater)
        have hcard : (insert key rest.toFinset).card = rest.length + 1 := by
          have hnot : key ∉ rest.toFinset := by
            rw [List.mem_toFinset]
            exact fun hkey => hroom.1 (List.mem_cons_of_mem k hkey)
          rw [Finset.card_insert_of_notMem hnot,
            List.toFinset_card_of_nodup (List.nodup_cons.mp h.nodup).2]
        have hlen : cap ≤ rest.length + 1 := by simpa using hroom.2
        calc cap ≤ rest.length + 1 := hlen
          _ = (insert key rest.toFinset).card := hcard.symm
          _ ≤ (insert key (askedSince k log)).card := Finset.card_le_card hasked
  · exact (h.missing k hmem horder).trans (Finset.card_le_card (Finset.subset_insert key _))

/-- **A key is asked for, and opened.** -/
theorem used (h : Recent cap log order) (hcap : 0 < cap) (key : α) :
    Recent cap (log ++ [.used key]) (kept cap key order ++ [key]) := by
  have hasked (k : α) (hk : k ≠ key) :
      askedSince k (log ++ [.used key]) = insert key (askedSince k log) := by
    simp [askedStep, Ne.symm hk]
  refine ⟨?_, ?_, ?_, ?_, ?_⟩
  · rw [← List.concat_eq_append]
    exact (h.nodup.sublist (kept_sublist cap key order)).concat notMem_kept
  · have hlt := h.length_kept_lt hcap key
    rw [List.length_append, List.length_singleton]
    omega
  · obtain ⟨before, hbefore⟩ := h.kept_suffix key
    refine ⟨before, ?_⟩
    rw [recency_concat, recencyStep, ← hbefore, List.append_assoc]
  · rw [List.pairwise_append]
    refine ⟨h.asked_kept fun k hk => ?_, List.pairwise_singleton _ key, ?_⟩
    · rw [hasked k hk]
      exact Finset.subset_insert key _
    · intro k hk later hlater
      obtain rfl := List.mem_singleton.mp hlater
      rw [hasked k fun hkey => notMem_kept (hkey ▸ hk)]
      exact Finset.mem_insert_self later _
  · intro k hmem hgone
    simp only [recency_concat, recencyStep, List.mem_append, mem_without, List.mem_singleton] at hmem
    simp only [List.mem_append, List.mem_singleton, not_or] at hgone
    rw [hasked k hgone.2]
    exact h.le_card_of_notMem_kept hgone.2 (hmem.resolve_right hgone.2).1 hgone.1

/-- **A key is asked for, and cannot be opened.** -/
theorem failed (h : Recent cap log order) (key : α) :
    Recent cap (log ++ [.failed key]) (kept cap key order) := by
  have hasked (k : α) (hk : k ≠ key) :
      askedSince k (log ++ [.failed key]) = insert key (askedSince k log) := by
    simp [askedStep, Ne.symm hk]
  have hsub := kept_sublist cap key order
  refine ⟨h.nodup.sublist hsub, hsub.length_le.trans h.length_le, ?_, ?_, ?_⟩
  · rw [recency_concat]
    exact h.kept_suffix key
  · refine h.asked_kept fun k hk => ?_
    rw [hasked k hk]
    exact Finset.subset_insert key _
  · intro k hmem hgone
    simp only [recency_concat, recencyStep, mem_without] at hmem
    rw [hasked k hmem.2]
    exact h.le_card_of_notMem_kept hmem.2 hmem.1 hgone

/-- A key is closed. -/
theorem closed (h : Recent cap log order) (key : α) :
    Recent cap (log ++ [.closed key]) (without key order) := by
  have hasked (k : α) : askedSince k (log ++ [.closed key]) = askedSince k log := by
    simp [askedStep]
  have hsub : (without key order).Sublist order := List.filter_sublist
  refine ⟨h.nodup.sublist hsub, hsub.length_le.trans h.length_le, ?_, ?_, ?_⟩
  · rw [recency_concat]
    exact without_suffix h.suffix
  · simp only [hasked]
    exact h.asked.sublist hsub
  · intro k hmem hgone
    simp only [recency_concat, recencyStep, mem_without] at hmem
    rw [hasked k]
    exact h.missing k hmem.1 fun horder => hgone (mem_without.mpr ⟨horder, hmem.2⟩)

end Recent

end Tokn.Recency

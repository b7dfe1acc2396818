import Mathlib.Data.String.Basic
import Tokn.Lib.BTreeMap
import Tokn.Lib.Str

/-!
# Routes

`crates/policy/src/route.rs`. A managed route may give scores to the providers of a model, by rules
that name the model or a prefix of it.

**Theorem (`providerScore_spec`).** The score of a provider is that of the rule that names the model,
if it scores the provider, and else that of the longest prefix whose rule does. Neither the sorting
of the prefixes nor the order of the rules shows.
-/

namespace Tokn.Policy

/-! ## Targets -/

inductive QualificationNamespace where
  | driver
  | provider
  deriving DecidableEq

structure ModelFamily where
  name : String
  members : List String
  deriving DecidableEq

inductive ModelSelector where
  | capability
  | qualified (ns : QualificationNamespace)
  | family (families : List ModelFamily)
  deriving DecidableEq

inductive ProviderSelector where
  | any
  | fixed (provider : String)
  deriving DecidableEq

structure ManagedTarget where
  provider : ProviderSelector
  model : ModelSelector
  deriving DecidableEq

inductive OperationPolicy where
  | preserve
  | translateCompatible
  deriving DecidableEq

/-! ## Managed routes -/

abbrev ProviderScores := BTreeMap String Int

structure ManagedRoute where
  target : ManagedTarget
  operation : OperationPolicy
  providers : Option (List String) := none
  modelScores : BTreeMap String ProviderScores := []
  modelScorePrefixes : List (String × ProviderScores) := []
  deriving DecidableEq

/-- `strip_suffix('*')`. -/
def stripStar (pattern : String) : Option String :=
  if pattern.toList.getLast? = some '*' then some (String.ofList pattern.toList.dropLast) else none

/-- The order of the prefixes: the longer first, then the smaller. -/
def prefixLe (left right : String × ProviderScores) : Bool :=
  right.1.utf8ByteSize < left.1.utf8ByteSize ||
    right.1.utf8ByteSize = left.1.utf8ByteSize && !(right.1 < left.1)

namespace ManagedRoute

def withModelScores (route : ManagedRoute) (scores : BTreeMap String ProviderScores) :
    ManagedRoute :=
  { route with
    modelScorePrefixes := (scores.filterMap fun entry =>
      (stripStar entry.1).map fun pre => (pre, entry.2)).mergeSort prefixLe
    modelScores := scores }

def providerScore (route : ManagedRoute) (model provider : String) : Int :=
  match ((route.modelScores.get model).filter fun _ => model.toList.getLast? ≠ some '*').bind
      fun scores => scores.get provider with
  | some score => score
  | none =>
    (route.modelScorePrefixes.findSome? fun entry =>
      if entry.1.toList.isPrefixOf model.toList then entry.2.get provider else none).getD 0

end ManagedRoute

/-! ## The rules -/

/-- What the rule with a pattern says of the provider. -/
def ruleScore (scores : BTreeMap String ProviderScores) (provider pattern : String) : Option Int :=
  (scores.get pattern).bind fun scores => scores.get provider

/-- What the rule that names the model says. A pattern with a star at its end names a prefix. -/
def exactScore (rule : String → Option Int) (model : String) : Option Int :=
  if model.toList.getLast? = some '*' then none else rule model

/-- The score of a model, by the rules for a provider. -/
inductive Score (rule : String → Option Int) (model : String) : Int → Prop
  | exact {score : Int} (h : exactScore rule model = some score) : Score rule model score
  | longest {score : Int} {pre : String} (hexact : exactScore rule model = none)
      (hpre : pre.toList <+: model.toList) (h : rule (pre ++ "*") = some score)
      (hlongest : ∀ other : String, other.toList <+: model.toList →
        (rule (other ++ "*")).isSome = true → other.toList.length ≤ pre.toList.length) :
      Score rule model score
  | neutral (hexact : exactScore rule model = none)
      (h : ∀ pre : String, pre.toList <+: model.toList → rule (pre ++ "*") = none) :
      Score rule model 0

/-- A model has one score. -/
theorem Score.unique {rule : String → Option Int} {model : String} {s t : Int}
    (hs : Score rule model s) (ht : Score rule model t) : s = t := by
  cases hs with
  | exact h =>
    cases ht with
    | exact h' => exact Option.some.inj (h.symm.trans h')
    | longest hexact => exact absurd (h.symm.trans hexact) nofun
    | neutral hexact => exact absurd (h.symm.trans hexact) nofun
  | @longest _ pre hexact hpre h hlongest =>
    cases ht with
    | exact h' => exact absurd (h'.symm.trans hexact) nofun
    | @longest _ pre' _ hpre' h' hlongest' =>
      have hlen : pre.toList.length = pre'.toList.length :=
        Nat.le_antisymm (hlongest' pre hpre (h ▸ rfl)) (hlongest pre' hpre' (h' ▸ rfl))
      have hsame : pre = pre' :=
        String.toList_injective ((List.prefix_of_prefix_length_le hpre hpre' hlen.le).eq_of_length hlen)
      subst hsame
      exact Option.some.inj (h.symm.trans h')
    | neutral _ hnone => exact absurd (h.symm.trans (hnone pre hpre)) nofun
  | neutral hexact hnone =>
    cases ht with
    | exact h' => exact absurd (h'.symm.trans hexact) nofun
    | @longest _ pre _ hpre h _ => exact absurd (h.symm.trans (hnone pre hpre)) nofun
    | neutral => rfl

/-! ## The prefixes -/

theorem stripStar_eq_some {pattern pre : String} :
    stripStar pattern = some pre ↔ pattern = pre ++ "*" := by
  rw [stripStar]
  by_cases hstar : pattern.toList.getLast? = some '*'
  · rw [if_pos hstar, Option.some.injEq]
    have hsplit : pattern.toList = pattern.toList.dropLast ++ ['*'] :=
      (List.dropLast_append_getLast? '*' hstar).symm
    constructor
    · rintro rfl
      refine String.toList_injective ?_
      rw [String.toList_append, String.toList_ofList]
      exact hsplit
    · rintro rfl
      refine String.toList_injective ?_
      rw [String.toList_ofList, String.toList_append]
      exact List.dropLast_concat
  · rw [if_neg hstar]
    refine iff_of_false nofun fun h => hstar ?_
    rw [h, String.toList_append]
    exact List.getLast?_concat

/-- The longer prefix comes first. -/
theorem prefixLe_size {left right : String × ProviderScores} (h : prefixLe left right = true) :
    right.1.utf8ByteSize ≤ left.1.utf8ByteSize := by
  rw [prefixLe, Bool.or_eq_true, Bool.and_eq_true, decide_eq_true_eq, decide_eq_true_eq] at h
  omega

theorem prefixLe_trans (a b c : String × ProviderScores) (hab : prefixLe a b = true)
    (hbc : prefixLe b c = true) : prefixLe a c = true := by
  rw [prefixLe, Bool.or_eq_true, Bool.and_eq_true, Bool.not_eq_true', decide_eq_true_eq,
    decide_eq_true_eq, decide_eq_false_iff_not, not_lt] at hab hbc ⊢
  rcases hab with hab | ⟨hab, hle⟩
  · left
    omega
  · rcases hbc with hbc | ⟨hbc, hle'⟩
    · left
      omega
    · exact Or.inr ⟨hbc.trans hab, hle.trans hle'⟩

theorem prefixLe_total (a b : String × ProviderScores) : (prefixLe a b || prefixLe b a) = true := by
  rw [Bool.or_eq_true, prefixLe, prefixLe, Bool.or_eq_true, Bool.or_eq_true, Bool.and_eq_true,
    Bool.and_eq_true, Bool.not_eq_true', Bool.not_eq_true', decide_eq_true_eq, decide_eq_true_eq,
    decide_eq_true_eq, decide_eq_true_eq, decide_eq_false_iff_not, decide_eq_false_iff_not, not_lt,
    not_lt]
  rcases Nat.lt_trichotomy a.1.utf8ByteSize b.1.utf8ByteSize with h | h | h
  · exact Or.inr (Or.inl h)
  · rcases le_total a.1 b.1 with hle | hle
    · exact Or.inl (Or.inr ⟨h.symm, hle⟩)
    · exact Or.inr (Or.inr ⟨h, hle⟩)
  · exact Or.inl (Or.inl h)

/-- Of two prefixes of a text, the one with more bytes has more characters. -/
theorem length_le_of_size_le {text a b : List Char} (ha : a <+: text) (hb : b <+: text)
    (h : (String.ofList a).utf8ByteSize ≤ (String.ofList b).utf8ByteSize) : a.length ≤ b.length := by
  rcases List.prefix_or_prefix_of_prefix ha hb with hab | ⟨rest, rfl⟩
  · exact hab.length_le
  · rw [Str.utf8ByteSize_ofList, Str.utf8ByteSize_ofList, List.map_append, List.sum_append] at h
    have hrest : (rest.map Char.utf8Size).sum = 0 := by omega
    cases rest with
    | nil => exact (List.length_append ▸ le_rfl)
    | cons c rest =>
      have hpos := c.utf8Size_pos
      rw [List.map_cons, List.sum_cons] at hrest
      omega

section

variable {scores : BTreeMap String ProviderScores} (hkeys : (scores.map Prod.fst).Nodup)
  (route : ManagedRoute)

include hkeys

theorem mem_modelScorePrefixes {pre : String} {providers : ProviderScores} :
    (pre, providers) ∈ (route.withModelScores scores).modelScorePrefixes ↔
      scores.get (pre ++ "*") = some providers := by
  change (pre, providers) ∈ List.mergeSort _ _ ↔ _
  rw [List.mem_mergeSort, List.mem_filterMap, BTreeMap.get_eq_some_iff hkeys]
  constructor
  · rintro ⟨⟨pattern, found⟩, hmem, hentry⟩
    obtain ⟨stripped, hstrip, heq⟩ := Option.map_eq_some_iff.mp hentry
    obtain ⟨rfl, rfl⟩ := Prod.mk.inj heq
    rw [← stripStar_eq_some.mp hstrip]
    exact hmem
  · intro hmem
    exact ⟨_, hmem, Option.map_eq_some_iff.mpr ⟨pre, stripStar_eq_some.mpr rfl, rfl⟩⟩

/-- What a prefix says of the provider. -/
theorem exists_prefix_iff {pre : String} {provider : String} {score : Int} :
    (∃ providers, (pre, providers) ∈ (route.withModelScores scores).modelScorePrefixes ∧
      providers.get provider = some score) ↔
      ruleScore scores provider (pre ++ "*") = some score := by
  rw [ruleScore, Option.bind_eq_some_iff]
  exact exists_congr fun providers => and_congr_left' (mem_modelScorePrefixes hkeys route)

/-- The score that the function gives is one by the rules. -/
theorem score_providerScore (model provider : String) :
    Score (ruleScore scores provider) model
      ((route.withModelScores scores).providerScore model provider) := by
  have hexact : ((scores.get model).filter fun _ => decide (model.toList.getLast? ≠ some '*')).bind
      (fun found => found.get provider) = exactScore (ruleScore scores provider) model := by
    rw [exactScore]
    by_cases hstar : model.toList.getLast? = some '*'
    · rw [if_pos hstar]
      cases scores.get model with
      | none => rfl
      | some found => simp [Option.filter, hstar]
    · rw [if_neg hstar, ruleScore]
      cases scores.get model with
      | none => rfl
      | some found => simp [Option.filter, hstar]
  rw [ManagedRoute.providerScore]
  change Score _ model (match ((scores.get model).filter _).bind _ with
    | some score => score
    | none => _)
  rw [hexact]
  cases hrule : exactScore (ruleScore scores provider) model with
  | some score => exact Score.exact hrule
  | none =>
    dsimp only
    cases hfind : (route.withModelScores scores).modelScorePrefixes.findSome? fun entry =>
        if entry.1.toList.isPrefixOf model.toList then entry.2.get provider else none with
    | none =>
      refine Score.neutral hrule fun pre hpre => ?_
      by_contra hsome
      obtain ⟨score, hscore⟩ := Option.ne_none_iff_exists'.mp hsome
      obtain ⟨providers, hmem, hget⟩ := (exists_prefix_iff hkeys route).mpr hscore
      have hnone := List.findSome?_eq_none_iff.mp hfind _ hmem
      rw [if_pos (List.isPrefixOf_iff_prefix.mpr hpre), hget] at hnone
      cases hnone
    | some score =>
      obtain ⟨before, ⟨pre, providers⟩, after, hsplit, hget, hbefore⟩ :=
        List.findSome?_eq_some_iff.mp hfind
      have hpre : pre.toList <+: model.toList := by
        by_contra hnot
        rw [if_neg (fun h => hnot (List.isPrefixOf_iff_prefix.mp h))] at hget
        cases hget
      rw [if_pos (List.isPrefixOf_iff_prefix.mpr hpre)] at hget
      have hmem : (pre, providers) ∈ (route.withModelScores scores).modelScorePrefixes := by
        rw [hsplit]
        exact List.mem_append_right _ List.mem_cons_self
      refine Score.longest hrule hpre ((exists_prefix_iff hkeys route).mp ⟨providers, hmem, hget⟩) ?_
      intro other hother hsome
      obtain ⟨score', hscore'⟩ := Option.isSome_iff_exists.mp hsome
      obtain ⟨providers', hmem', hget'⟩ := (exists_prefix_iff hkeys route).mpr hscore'
      -- the prefixes are sorted, and none before the first one that answers does answer
      have hsorted : ((route.withModelScores scores).modelScorePrefixes).Pairwise
          fun a b => prefixLe a b = true :=
        List.pairwise_mergeSort prefixLe_trans prefixLe_total _
      rw [hsplit] at hmem' hsorted
      have hle : prefixLe (pre, providers) (other, providers') = true := by
        rcases List.mem_append.mp hmem' with hin | hin
        · have hnone := hbefore _ hin
          rw [if_pos (List.isPrefixOf_iff_prefix.mpr hother), hget'] at hnone
          cases hnone
        · rcases List.mem_cons.mp hin with heq | hin
          · rw [heq]
            exact (Bool.or_self _).symm.trans (prefixLe_total _ _)
          · exact List.rel_of_pairwise_cons (List.pairwise_append.mp hsorted).2.1 hin
      have hsize := prefixLe_size hle
      refine length_le_of_size_le hother hpre ?_
      rw [String.ofList_toList, String.ofList_toList]
      exact hsize

end

/-! ## Tables of rules -/

/-- The rules as a map. A rule for a pattern that there is already takes its place. -/
def scoreTable (rules : List (String × ProviderScores)) : BTreeMap String ProviderScores :=
  BTreeMap.extend [] rules

theorem nodup_scoreTable (rules : List (String × ProviderScores)) :
    ((scoreTable rules).map Prod.fst).Nodup :=
  (BTreeMap.sorted_nil.extend rules).nodup

/-- **The score of a provider** is the score by the rules. -/
theorem providerScore_eq_iff (route : ManagedRoute) (rules : List (String × ProviderScores))
    (model provider : String) (score : Int) :
    (route.withModelScores (scoreTable rules)).providerScore model provider = score ↔
      Score (ruleScore (scoreTable rules) provider) model score := by
  have hscore := score_providerScore (nodup_scoreTable rules) route model provider
  constructor
  · rintro rfl
    exact hscore
  · exact fun h => hscore.unique h

theorem get_scoreTable_perm {rules rules' : List (String × ProviderScores)} (h : rules.Perm rules')
    (hkeys : (rules.map Prod.fst).Nodup) (pattern : String) :
    (scoreTable rules).get pattern = (scoreTable rules').get pattern := by
  have hkeys' : (rules'.map Prod.fst).Nodup := (h.map Prod.fst).nodup_iff.mp hkeys
  have hget : ∀ {rules : List (String × ProviderScores)}, (rules.map Prod.fst).Nodup →
      ∀ scores, (scoreTable rules).get pattern = some scores ↔ (pattern, scores) ∈ rules := by
    intro rules hkeys scores
    have hreverse : (rules.reverse.map Prod.fst).Nodup := by
      rw [List.map_reverse]
      exact List.nodup_reverse.mpr hkeys
    rw [scoreTable, BTreeMap.get_extend, BTreeMap.get_nil, Option.or_none,
      BTreeMap.get_eq_some_iff hreverse, List.mem_reverse]
  refine Option.ext fun scores => ?_
  rw [hget hkeys, hget hkeys', h.mem_iff]

/-- **The order of the rules does not matter.** -/
theorem providerScore_perm (route : ManagedRoute) {rules rules' : List (String × ProviderScores)}
    (h : rules.Perm rules') (hkeys : (rules.map Prod.fst).Nodup) (model provider : String) :
    (route.withModelScores (scoreTable rules)).providerScore model provider =
      (route.withModelScores (scoreTable rules')).providerScore model provider := by
  have hrule : ruleScore (scoreTable rules) provider = ruleScore (scoreTable rules') provider := by
    funext pattern
    rw [ruleScore, ruleScore, get_scoreTable_perm h hkeys]
  rw [providerScore_eq_iff, hrule]
  exact score_providerScore (nodup_scoreTable rules') route model provider

/-- **The score of a provider by the rules**, in whatever order they come. -/
theorem providerScore_spec (route : ManagedRoute) (rules : List (String × ProviderScores))
    (model provider : String) :
    (∀ score, (route.withModelScores (scoreTable rules)).providerScore model provider = score ↔
      Score (ruleScore (scoreTable rules) provider) model score) ∧
    ∀ rules', rules.Perm rules' → (rules.map Prod.fst).Nodup →
      (route.withModelScores (scoreTable rules')).providerScore model provider =
        (route.withModelScores (scoreTable rules)).providerScore model provider :=
  ⟨providerScore_eq_iff route rules model provider, fun _ hperm hkeys =>
    (providerScore_perm route hperm hkeys model provider).symm⟩

def sampleRules : List (String × ProviderScores) :=
  [("*", [("openai", 5)]), ("gpt-*", [("codex", 20), ("openai", 10)]),
    ("gpt-5.6-*", [("opencode-go", 50)]), ("gpt-5.6-luna", [("codex", 100)])]

def sampleRoute : ManagedRoute where
  target := ⟨.any, .capability⟩
  operation := .translateCompatible

/-- The longest prefix that a rule for the provider has. -/
theorem score_sampleRules :
    Score (ruleScore (scoreTable sampleRules) "openai") "gpt-5.6-luna" 10 := by
  have hprefixes : ∀ pre ∈ "gpt-5.6-luna".toList.inits,
      (ruleScore (scoreTable sampleRules) "openai" (String.ofList pre ++ "*")).isSome = true →
        pre.length ≤ 4 := by
    decide +kernel
  refine @Score.longest _ _ 10 "gpt-" (by decide +kernel) (by decide +kernel) (by decide +kernel) ?_
  intro other hother hrule
  refine hprefixes other.toList ((List.mem_inits _ _).mpr hother) ?_
  rwa [String.ofList_toList]

theorem providerScore_sampleRules :
    (sampleRoute.withModelScores (scoreTable sampleRules)).providerScore "gpt-5.6-luna" "openai" =
        10 ∧
      (sampleRoute.withModelScores (scoreTable sampleRules.reverse)).providerScore "gpt-5.6-luna"
        "openai" = 10 := by
  obtain ⟨hscore, horder⟩ := providerScore_spec sampleRoute sampleRules "gpt-5.6-luna" "openai"
  rw [horder sampleRules.reverse (List.reverse_perm _).symm (by decide +kernel), and_self, hscore]
  exact score_sampleRules

end Tokn.Policy

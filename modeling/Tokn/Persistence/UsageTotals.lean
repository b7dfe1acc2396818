import Tokn.Convert.Chat
import Tokn.Convert.ResponseParsers
import Tokn.Convert.UsageFields
import Tokn.Lib.Build
import Tokn.Persistence.RequestUsage

/-!
# Sums of token counts

Rendering a usage without a total adds its two counts, and parsing the usage of Anthropic adds the
three parts of its input. The counts are any `u64` of an upstream body. Here the addition is a
parameter: the other definitions of the usage are those of a release build.

**Theorem (`usage_exact_iff`).** In either build, rendering a usage gives what exact arithmetic gives
exactly if its counts fit, and so does all that is made of a body exactly if the sums do that are made.
A usage is read by the parsers of the three answers and by the decoders of their events; that of
Messages never has a total.
-/

namespace Tokn.Persistence

variable (add : Addition)

/-! ## Rendering -/

namespace Rendered

/-- The total of a usage: its own, or the sum of its counts. -/
def totalTokens (u : Convert.Usage) : Option Nat :=
  match u.totalTokens with
  | some total => some total
  | none => add (u.inputTokens.getD 0) (u.outputTokens.getD 0)

def usageToChat (u : Convert.Usage) : Option Value :=
  (totalTokens add u).map fun total => Convert.usageToChat { u with totalTokens := some total }

def usageToIo (u : Convert.Usage) : Option Value :=
  (totalTokens add u).map fun total => Convert.usageToIo { u with totalTokens := some total }

/-- What a usage without a total has to fit. -/
def Fits (u : Convert.Usage) : Prop :=
  u.totalTokens = none → u.inputTokens.getD 0 + u.outputTokens.getD 0 < 2 ^ 64

theorem totalTokens_eq_iff {build : Build} {u : Convert.Usage} :
    totalTokens (build.add 64) u = totalTokens exactAdd u ↔ Fits u := by
  rw [totalTokens, totalTokens, Fits]
  cases u.totalTokens with
  | none =>
    dsimp only
    rw [Build.add_eq_exactAdd_iff]
    exact ⟨fun h _ => h, fun h => h rfl⟩
  | some total => exact iff_of_true rfl fun h => by cases h

/-- A total shows in what is rendered. -/
theorem map_usageToObject_injective {input output inputDetails outputDetails : String}
    (hinput : "total_tokens" ≠ inputDetails) (houtput : "total_tokens" ≠ outputDetails)
    (u : Convert.Usage) :
    Function.Injective (Option.map fun total : Nat =>
      Convert.usageToObject input output inputDetails outputDetails
        { u with totalTokens := some total }) := by
  refine Option.map_injective fun a b h => ?_
  have hget := congrArg (fun v : Value => v.u64 "total_tokens") h
  simpa [Value.u64, Convert.get_usageToObject, hinput, houtput, Value.nat, Value.asU64] using hget

theorem usageToChat_eq_iff {build : Build} {u : Convert.Usage} :
    usageToChat (build.add 64) u = usageToChat exactAdd u ↔ Fits u := by
  rw [← @totalTokens_eq_iff build]
  exact (map_usageToObject_injective (by decide) (by decide) u).eq_iff

theorem usageToIo_eq_iff {build : Build} {u : Convert.Usage} :
    usageToIo (build.add 64) u = usageToIo exactAdd u ↔ Fits u := by
  rw [← @totalTokens_eq_iff build]
  exact (map_usageToObject_injective (by decide) (by decide) u).eq_iff

end Rendered

/-! ## Parsing -/

namespace Parsed

/-- The sum of the three parts of the input, if there is any. -/
def totalInput : Option Nat → Option Nat → Option Nat → Option (Option Nat)
  | none, none, none => some none
  | a, b, c =>
    ((add (a.getD 0) (b.getD 0)).bind fun ab => add ab (c.getD 0)).map some

def parseAnthropicUsage (u : Option Value) : Option (Option Usage) :=
  match Persistence.parseAnthropicUsage u with
  | none => some none
  | some usage =>
    (totalInput add (ptrU64 u ["input_tokens"]) (ptrU64 u ["cache_creation_input_tokens"])
      (ptrU64 u ["cache_read_input_tokens"])).map fun input =>
        some { usage with inputTokens := input }

/-- The next parser, if the first one finds nothing. -/
def orElse (first next : Option (Option Usage)) : Option (Option Usage) :=
  first.bind fun found =>
    match found with
    | some usage => some (some usage)
    | none => next

def parseUsageAnyValue (v : Value) : Option Usage :=
  let usage := v.pointer ["usage"]
  let detected :=
    match detectUsageType usage with
    | some .chat => some (parseOpenaiChatUsage usage)
    | some .responses => some (parseOpenaiResponsesUsage usage)
    | some .messages => parseAnthropicUsage add usage
    | none => some none
  let found :=
    orElse (parseAnthropicUsage add (v.pointer ["message", "usage"])) <|
    orElse (some (parseOpenaiResponsesUsage (v.pointer ["response", "usage"]))) <|
    orElse detected <|
    orElse (some (parseOpenaiChatUsage usage)) <|
    orElse (some (parseOpenaiResponsesUsage usage)) <|
    parseAnthropicUsage add usage
  found.map fun found => found.getD {}

/-- The parts that are added up. -/
def inputParts (u : Option Value) : Nat :=
  (ptrU64 u ["input_tokens"]).getD 0 + (ptrU64 u ["cache_creation_input_tokens"]).getD 0 +
    (ptrU64 u ["cache_read_input_tokens"]).getD 0

theorem totalInput_eq_iff {build : Build} {a b c : Option Nat} :
    totalInput (build.add 64) a b c = totalInput exactAdd a b c ↔
      a.getD 0 + b.getD 0 + c.getD 0 < 2 ^ 64 := by
  have hsum : ((build.add 64 (a.getD 0) (b.getD 0)).bind fun ab =>
      build.add 64 ab (c.getD 0)).map some =
      ((exactAdd (a.getD 0) (b.getD 0)).bind fun ab => exactAdd ab (c.getD 0)).map some ↔
        a.getD 0 + b.getD 0 + c.getD 0 < 2 ^ 64 := by
    rw [← @Build.add_add_eq_exactAdd_iff build]
    exact (Option.map_injective (Option.some_injective Nat)).eq_iff
  cases a with
  | some a => exact hsum
  | none =>
    cases b with
    | some b => exact hsum
    | none =>
      cases c with
      | some c => exact hsum
      | none => exact iff_of_true rfl (by decide)

/-- The block of a usage that is in the form of Anthropic. -/
def anthropicBlock (u : Option Value) : Option Value := u.filter hasAnthropicUsageMarkers

theorem parseAnthropicUsage_of_none {u : Option Value} (h : anthropicBlock u = none) :
    parseAnthropicUsage add u = some none := by
  have hnone : Persistence.parseAnthropicUsage u = none := by
    cases u with
    | none => rfl
    | some value =>
      have hmarkers := Option.filter_eq_none_iff.mp h value rfl
      exact if_neg hmarkers
  rw [parseAnthropicUsage, hnone]

theorem parseAnthropicUsage_of_some {u : Option Value} {value : Value}
    (h : anthropicBlock u = some value) :
    ∃ usage : Usage, ∀ add, parseAnthropicUsage add u =
      (totalInput add (ptrU64 u ["input_tokens"]) (ptrU64 u ["cache_creation_input_tokens"])
        (ptrU64 u ["cache_read_input_tokens"])).map fun input =>
          some { usage with inputTokens := input } := by
  obtain ⟨rfl, hmarkers⟩ := Option.filter_eq_some_iff.mp h
  have hsome : (Persistence.parseAnthropicUsage (some value)).isSome = true := by
    rw [Persistence.parseAnthropicUsage, Option.bind_some, if_pos hmarkers]
    rfl
  obtain ⟨usage, husage⟩ := Option.isSome_iff_exists.mp hsome
  exact ⟨usage, fun add => by rw [parseAnthropicUsage, husage]⟩

/-- A parse that finds a usage once its input is added up. -/
theorem orElse_map (input : Option (Option Nat)) (f : Option Nat → Usage)
    (next : Option (Option Usage)) :
    orElse (input.map fun input => some (f input)) next = input.map fun input => some (f input) := by
  cases input <;> rfl

theorem orElse_none (next : Option (Option Usage)) : orElse (some none) next = next := rfl

theorem orElse_some (first next : Option Usage) :
    orElse (some first) (some next) = some (first <|> next) := by
  cases first <;> rfl

/-- The block whose input is added up, of those that a body may have. -/
def addedBlock (v : Value) : Option Value :=
  match anthropicBlock (v.pointer ["message", "usage"]) with
  | some _ => v.pointer ["message", "usage"]
  | none =>
    match parseOpenaiResponsesUsage (v.pointer ["response", "usage"]) with
    | some _ => none
    | none => anthropicBlock (v.pointer ["usage"])

/-- **What parsing a body adds up**: the input of one block, or nothing. -/
theorem parseUsageAnyValue_cases (v : Value) :
    addedBlock v = none ∧ (∃ usage, ∀ add, parseUsageAnyValue add v = some usage) ∨
      ∃ value, addedBlock v = some value ∧ ∃ usage : Usage, ∀ add, parseUsageAnyValue add v =
        (totalInput add (ptrU64 (some value) ["input_tokens"])
          (ptrU64 (some value) ["cache_creation_input_tokens"])
          (ptrU64 (some value) ["cache_read_input_tokens"])).map fun input =>
            { usage with inputTokens := input } := by
  cases hm : anthropicBlock (v.pointer ["message", "usage"]) with
  | some value =>
    obtain ⟨usage, husage⟩ := parseAnthropicUsage_of_some hm
    have hvalue := (Option.filter_eq_some_iff.mp hm).1
    refine Or.inr ⟨value, by rw [addedBlock, hm]; exact hvalue, usage, fun add => ?_⟩
    rw [parseUsageAnyValue, husage add, orElse_map, Option.map_map, hvalue]
    rfl
  | none =>
    cases hr : parseOpenaiResponsesUsage (v.pointer ["response", "usage"]) with
    | some usage =>
      refine Or.inl ⟨by rw [addedBlock, hm]; dsimp only; rw [hr], usage, fun add => ?_⟩
      rw [parseUsageAnyValue, parseAnthropicUsage_of_none add hm, orElse_none, hr]
      rfl
    | none =>
      have hblock : addedBlock v = anthropicBlock (v.pointer ["usage"]) := by
        rw [addedBlock, hm]
        dsimp only
        rw [hr]
      cases hu : anthropicBlock (v.pointer ["usage"]) with
      | some value =>
        obtain ⟨usage, husage⟩ := parseAnthropicUsage_of_some hu
        obtain ⟨hvalue, hmarkers⟩ := Option.filter_eq_some_iff.mp hu
        have hdetect : detectUsageType (v.pointer ["usage"]) = some .messages := by
          rw [hvalue, detectUsageType, Option.bind_some, if_pos hmarkers]
        refine Or.inr ⟨value, hblock.trans hu, usage, fun add => ?_⟩
        rw [parseUsageAnyValue, parseAnthropicUsage_of_none add hm, orElse_none, hr, orElse_none]
        rw [hdetect]
        dsimp only
        rw [husage add, orElse_map, Option.map_map, hvalue]
        rfl
      | none =>
        refine Or.inl ⟨hblock.trans hu, ?_⟩
        have hparse : ∀ add, parseUsageAnyValue add v = parseUsageAnyValue exactAdd v := by
          intro add
          simp only [parseUsageAnyValue, parseAnthropicUsage_of_none _ hm,
            parseAnthropicUsage_of_none _ hu]
        have hsome : (parseUsageAnyValue exactAdd v).isSome = true := by
          simp only [parseUsageAnyValue, parseAnthropicUsage_of_none _ hm,
            parseAnthropicUsage_of_none _ hu]
          split <;> simp only [orElse_some, Option.map_some, Option.isSome_some]
        obtain ⟨usage, husage⟩ := Option.isSome_iff_exists.mp hsome
        exact ⟨usage, fun add => (hparse add).trans husage⟩

theorem parseUsageAnyValue_eq_iff {build : Build} {v : Value} :
    parseUsageAnyValue (build.add 64) v = parseUsageAnyValue exactAdd v ↔
      ∀ value, addedBlock v = some value → inputParts (some value) < 2 ^ 64 := by
  obtain ⟨hblock, usage, husage⟩ | ⟨value, hblock, usage, husage⟩ := parseUsageAnyValue_cases v
  · rw [husage, husage, hblock]
    exact iff_of_true rfl fun value h => by cases h
  · have hinjective : Function.Injective (Option.map fun input : Option Nat =>
        { usage with inputTokens := input }) :=
      Option.map_injective fun a b h => congrArg Usage.inputTokens h
    rw [husage, husage, hinjective.eq_iff, totalInput_eq_iff, hblock]
    exact ⟨fun h value' hvalue => Option.some.inj hvalue ▸ h, fun h => h value rfl⟩

end Parsed

/-! ## Whole bodies -/

/-- The usages that a value is read as: by the parsers of the answers of the three endpoints, and by the
decoders of their events. -/
def usagesOf (v : Value) : List Convert.Usage :=
  (Convert.usageFromOpenai v).toList ++
    ((v.get "usage").map Convert.Messages.usageFromMessages).toList ++
      Convert.usages (Convert.Chat.deltaFromChatChunk v ++
        Convert.Responses.deltaFromResponsesEvent v ++ Convert.Messages.deltaFromMessagesEvent v)

/-- The usages of a value, rendered in Chat and in Responses, and the one that is recorded. -/
def usageOf (add : Addition) (v : Value) :
    List (Option Value) × List (Option Value) × Option Usage :=
  ((usagesOf v).map (Rendered.usageToChat add), (usagesOf v).map (Rendered.usageToIo add),
    Parsed.parseUsageAnyValue add v)

/-- **Sums of token counts**, of any usage and of what a value is read as. -/
theorem usage_exact_iff (build : Build) :
    (∀ u, (Rendered.usageToChat (build.add 64) u = Rendered.usageToChat exactAdd u ∧
        Rendered.usageToIo (build.add 64) u = Rendered.usageToIo exactAdd u) ↔ Rendered.Fits u) ∧
      ∀ v, usageOf (build.add 64) v = usageOf exactAdd v ↔
        (∀ u ∈ usagesOf v, Rendered.Fits u) ∧
          ∀ value, Parsed.addedBlock v = some value → Parsed.inputParts (some value) < 2 ^ 64 := by
  refine ⟨fun u => ?_, fun v => ?_⟩
  · rw [Rendered.usageToChat_eq_iff, Rendered.usageToIo_eq_iff, and_self]
  · rw [usageOf, usageOf, Prod.mk.injEq, Prod.mk.injEq, Parsed.parseUsageAnyValue_eq_iff,
      ← and_assoc]
    refine and_congr_left fun _ => ?_
    simp only [List.map_inj_left, Rendered.usageToChat_eq_iff, Rendered.usageToIo_eq_iff, and_self]

/-- Two counts of an answer that are `u64`, but whose sum is not: of Chat, and of Messages, where a total
does not help. -/
theorem usage_overflow :
    let chat := Value.obj [("usage", .obj [("prompt_tokens", .nat (2 ^ 64 - 1)),
      ("completion_tokens", .nat 1)])]
    let messages := Value.obj [("usage", .obj [("input_tokens", .nat (2 ^ 64 - 1)),
      ("output_tokens", .nat 1), ("total_tokens", .nat 1)])]
    usageOf (Build.debug.add 64) chat ≠ usageOf exactAdd chat ∧
      (Convert.usageFromOpenai chat).map (Rendered.usageToChat (Build.debug.add 64)) = some none ∧
      (((Convert.usageFromOpenai chat).bind (Rendered.usageToChat (Build.release.add 64))).bind
        fun rendered => rendered.u64 "total_tokens") = some 0 ∧
      usageOf (Build.release.add 64) messages ≠ usageOf exactAdd messages := by
  decide +kernel

end Tokn.Persistence

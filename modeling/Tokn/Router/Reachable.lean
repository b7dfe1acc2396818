import Tokn.Config.Unreachable

/-!
# Bindings that can fire

A binding of a forward proxy decides the requests that its matcher takes and that no earlier one
does. The compiler compares matchers dimension by dimension. A request has the operation that its
method and its path say, so not every combination of values is that of a request.

**Theorem (`reachable_iff`).** A binding of a compiled listener can fire if and only if it leaves
room for a request: for some host, some path prefix of the matcher, and a method if it asks for no
operation, or else `POST` and an operation of the runtime, no earlier binding covers them.
-/

namespace Tokn.Router

open Tokn.Policy
open Tokn.Config
open Tokn.Convert (Endpoint)
open Tokn.Escapes
open Dimension (admits atoms atomAdmits subsumesAtom Generic)

/-! ## Requests -/

/-- A request to a forward proxy. -/
structure Request (env : Syntax) where
  host : CanonicalHost
  method : Text
  path : Text
  canonical : ∃ raw, CanonicalHost.fromStr env.toIpSyntax raw = .ok host
  token : method ≠ [] ∧ ∀ c ∈ method, isHttpTokenChar c = true
  absolute : path.head? = some '/'
  escaped : Escaped isHexDigit path
  chars : ∀ c ∈ path, isPathChar c = true

/-- The matcher takes the request. -/
def Request.meets {env : Syntax} (request : Request env) (matcher : HttpMatch) : Bool :=
  httpMatches matcher (some request.host) request.method request.path
    (proxyOperation request.method request.path)

/-- Some request is matched by the binding, and by none of the earlier ones. -/
def Reachable (env : Syntax) (before : List HttpBindingPlan) (binding : HttpBindingPlan) : Prop :=
  ∃ request : Request env, request.meets binding.matcher = true ∧
    ∀ earlier ∈ before, request.meets earlier.matcher = false

/-! ## Room for a request -/

/-- The matcher takes all requests to the host that have the values. -/
def covers (matcher : HttpMatch) (host : CanonicalHost) (pathPrefix method : Option Text)
    (operation : Option String) : Bool :=
  admits hostMeets matcher.hosts (some host) &&
    subsumesAtom pathCovers matcher.pathPrefixes pathPrefix &&
    subsumesAtom (· == ·) matcher.methods method &&
    subsumesAtom (· == ·) matcher.operations operation

def post : Text := "POST".toList

/-- A binding that asks for no operation leaves a method uncovered. -/
def LeavesMethod (before : List HttpBindingPlan) (matcher : HttpMatch) (host : CanonicalHost)
    (pathPrefix : Option Text) : Prop :=
  matcher.operations = [] ∧ ∃ method ∈ atoms matcher.methods,
    ∀ earlier ∈ before, covers earlier.matcher host pathPrefix method none = false

/-- A binding that asks for operations leaves one of the runtime uncovered, and admits `POST`. -/
def LeavesOperation (before : List HttpBindingPlan) (matcher : HttpMatch) (host : CanonicalHost)
    (pathPrefix : Option Text) : Prop :=
  ∃ endpoint, operationName endpoint ∈ matcher.operations ∧
    admits eqIgnoreAsciiCase matcher.methods post = true ∧
    ∀ earlier ∈ before,
      covers earlier.matcher host pathPrefix (some post) (some (operationName endpoint)) = false

/-- What the earlier bindings leave of a matcher. -/
def LeavesRoom (env : Syntax) (before : List HttpBindingPlan) (matcher : HttpMatch) : Prop :=
  ∃ host, (∃ raw, CanonicalHost.fromStr env.toIpSyntax raw = .ok host) ∧
    admits hostMeets matcher.hosts (some host) = true ∧
    ∃ pathPrefix ∈ atoms matcher.pathPrefixes,
      LeavesMethod before matcher host pathPrefix ∨ LeavesOperation before matcher host pathPrefix

/-! ## What is reachable leaves room -/

variable {method : Text} {matcher : HttpMatch} {before : List HttpBindingPlan}

theorem proxyOperation_eq_some {path : Text} {operation : String}
    (h : proxyOperation method path = some operation) :
    method = post ∧ ∃ endpoint, operation = operationName endpoint := by
  rw [proxyOperation] at h
  split_ifs at h with hpost
  obtain ⟨endpoint, -, hname⟩ := Option.map_eq_some_iff.mp h
  exact ⟨hpost, endpoint, hname.symm⟩

/-- What a matcher covers it takes. -/
theorem httpMatches_of_covers {host : CanonicalHost} {path : Text} {operation : Option String}
    {pathAtom methodAtom : Option Text} {operationAtom : Option String}
    (hpath : atomAdmits List.isPrefixOf pathAtom path = true)
    (hmethod : atomAdmits eqIgnoreAsciiCase methodAtom method = true)
    (hoperation : atomAdmits operationMeets operationAtom operation = true)
    (h : covers matcher host pathAtom methodAtom operationAtom = true) :
    httpMatches matcher (some host) method path operation = true := by
  rw [covers] at h
  simp only [Bool.and_eq_true] at h
  obtain ⟨⟨⟨hhosts, hpaths⟩, hmethods⟩, hoperations⟩ := h
  exact httpMatches_iff.mpr ⟨hhosts,
    Dimension.admits_of_subsumesAtom sound_pathCovers hpaths hpath,
    Dimension.admits_of_subsumesAtom (.of_eq _) hmethods hmethod,
    Dimension.admits_of_subsumesAtom (.of_eq _) hoperations hoperation⟩

theorem leavesRoom_of_reachable {env : Syntax} {binding : HttpBindingPlan}
    (h : Reachable env before binding) : LeavesRoom env before binding.matcher := by
  obtain ⟨request, htakes, hnone⟩ := h
  obtain ⟨hhosts, hpaths, hmethods, hoperations⟩ := httpMatches_iff.mp htakes
  obtain ⟨pathAtom, hpathAtom, hpath⟩ := Dimension.admits_iff_exists_atom.mp hpaths
  refine ⟨request.host, request.canonical, hhosts, pathAtom, hpathAtom, ?_⟩
  -- an earlier binding that covered the values of the request would match it
  have huncovered : ∀ {methodAtom : Option Text} {operationAtom : Option String},
      atomAdmits eqIgnoreAsciiCase methodAtom request.method = true →
      atomAdmits operationMeets operationAtom
        (proxyOperation request.method request.path) = true →
      ∀ earlier ∈ before,
        covers earlier.matcher request.host pathAtom methodAtom operationAtom = false := by
    intro methodAtom operationAtom hmethod hoperation earlier hmem
    apply Bool.eq_false_iff.mpr
    intro hcovers
    have htaken := httpMatches_of_covers hpath hmethod hoperation hcovers
    rw [← Request.meets, hnone earlier hmem] at htaken
    cases htaken
  rcases Dimension.admits_iff.mp hoperations with hnil | hsome
  · obtain ⟨methodAtom, hmethodAtom, hmethod⟩ := Dimension.admits_iff_exists_atom.mp hmethods
    exact Or.inl ⟨hnil, methodAtom, hmethodAtom, huncovered hmethod rfl⟩
  · obtain ⟨operation, hmem, hmeets⟩ := hsome
    obtain ⟨operation', hproxy, hname⟩ := (Option.any_eq_true _ _).mp hmeets
    cases eq_of_beq hname
    obtain ⟨hpost, endpoint, rfl⟩ := proxyOperation_eq_some hproxy
    refine Or.inr ⟨endpoint, hmem, hpost ▸ hmethods, huncovered ?_ ?_⟩
    · rw [hpost]
      rfl
    · exact hmeets

/-! ## Generic paths -/

/-- The part of a path that an atom fixes. -/
def base : Option Text → Text
  | none => ['/']
  | some pathPrefix => pathPrefix

/-- A path that has no longer canonical prefix than the base: the escape has a lower case digit. -/
def probe (pathAtom : Option Text) (tail : Text) : Text := base pathAtom ++ '%' :: '2' :: 'f' :: tail

theorem mem_atoms_canonical (h : CanonicalMatch matcher) {pathAtom : Option Text}
    (hatom : pathAtom ∈ atoms matcher.pathPrefixes) :
    ∀ pathPrefix, pathAtom = some pathPrefix → CanonicalPath pathPrefix := by
  intro pathPrefix heq
  rw [heq] at hatom
  exact h.pathPrefixes pathPrefix (Dimension.mem_atoms.mp hatom)

section

variable {pathAtom : Option Text}
  (hatom : ∀ pathPrefix, pathAtom = some pathPrefix → CanonicalPath pathPrefix)

include hatom

theorem escaped_base : Escaped isUpperHexDigit (base pathAtom) := by
  cases pathAtom with
  | none => exact .plain (by decide) .nil
  | some pathPrefix => exact (hatom pathPrefix rfl).escaped

theorem head?_base : (base pathAtom).head? = some '/' := by
  cases pathAtom with
  | none => rfl
  | some pathPrefix => exact (hatom pathPrefix rfl).absolute

theorem isPathChar_base : ∀ c ∈ base pathAtom, isPathChar c = true := by
  cases pathAtom with
  | none => exact Ascii.forall_mem_of_all (by decide)
  | some pathPrefix => exact (hatom pathPrefix rfl).chars

theorem head?_probe (tail : Text) : (probe pathAtom tail).head? = some '/' := by
  rw [probe, List.head?_append, head?_base hatom]
  rfl

theorem escaped_probe {tail : Text} (htail : '%' ∉ tail) :
    Escaped isHexDigit (probe pathAtom tail) := by
  have hbase := (escaped_base hatom).mono fun _ => isHexDigit_of_isUpperHexDigit
  exact (escaped_append_iff hbase).mpr (.escape (by decide) (by decide) (escaped_of_not_mem htail))

theorem isPathChar_probe {tail : Text} (htail : ∀ c ∈ tail, isPathChar c = true) :
    ∀ c ∈ probe pathAtom tail, isPathChar c = true := by
  intro c hc
  rcases List.mem_append.mp hc with hbase | hrest
  · exact isPathChar_base hatom c hbase
  · simp only [List.mem_cons] at hrest
    rcases hrest with rfl | rfl | rfl | hrest
    · decide
    · decide
    · decide
    · exact htail c hrest

/-- Only the prefixes that cover the atom are prefixes of the probe. -/
theorem generic_probe {matcher : HttpMatch} (h : CanonicalMatch matcher) (tail : Text) :
    Generic pathCovers List.isPrefixOf matcher.pathPrefixes pathAtom (probe pathAtom tail) := by
  intro pathPrefix hmem hpre
  have hcanonical := h.pathPrefixes pathPrefix hmem
  have hbase : pathPrefix <+: base pathAtom :=
    prefix_of_prefix_append hcanonical.escaped (escaped_base hatom) (by decide)
      (List.isPrefixOf_iff_prefix.mp hpre)
  cases pathAtom with
  | none =>
    -- the root is no prefix of a matcher
    rcases List.prefix_cons_iff.mp hbase with hnil | ⟨rest, hrest, hnil⟩
    · rw [hnil] at hcanonical
      cases hcanonical.absolute
    · rw [List.prefix_nil.mp hnil] at hrest
      exact absurd hrest hcanonical.notRoot
  | some pathPrefix' => exact ⟨pathPrefix', rfl, List.isPrefixOf_iff_prefix.mpr hbase⟩

end

theorem admits_probe {pathAtom : Option Text} (hatom : pathAtom ∈ atoms matcher.pathPrefixes)
    (tail : Text) : admits List.isPrefixOf matcher.pathPrefixes (probe pathAtom tail) = true := by
  refine Dimension.admits_iff_exists_atom.mpr ⟨pathAtom, hatom, ?_⟩
  cases pathAtom with
  | none => rfl
  | some pathPrefix => exact List.isPrefixOf_iff_prefix.mpr (List.prefix_append _ _)

/-! ## Operations of generic paths -/

/-- The end of the paths of an operation. -/
def operationTail : Endpoint → Text
  | .chatCompletions => "/chat/completions".toList
  | .responses => "/responses".toList
  | .messages => "/messages".toList

theorem inferEndpoint_of_suffix {endpoint : Endpoint} {path : Text}
    (h : operationTail endpoint <:+ path) : inferEndpoint path = some endpoint := by
  have hother : ∀ {tail : Text}, (operationTail endpoint).length ≤ tail.length →
      ¬ operationTail endpoint <:+ tail → ¬ tail.isSuffixOf path = true := by
    intro tail hlen hnot htail
    exact hnot (List.suffix_of_suffix_length_le h (List.isSuffixOf_iff_suffix.mp htail) hlen)
  have hself := List.isSuffixOf_iff_suffix.mpr h
  unfold inferEndpoint
  cases endpoint with
  | chatCompletions => exact if_pos hself
  | responses =>
    rw [if_neg (hother (by decide) (by decide))]
    exact if_pos hself
  | messages =>
    rw [if_neg (hother (by decide) (by decide)), if_neg (hother (by decide) (by decide))]
    exact if_pos hself

theorem not_suffix_probe {tail : Text} {pathAtom : Option Text} (htail : tail.getLast? ≠ some 'f')
    (hne : tail ≠ []) : ¬ tail.isSuffixOf (probe pathAtom []) = true := by
  intro h
  obtain ⟨front, hfront⟩ := List.isSuffixOf_iff_suffix.mp h
  have hlast := congrArg List.getLast? hfront
  rw [probe, List.getLast?_append_of_ne_nil _ hne, List.getLast?_append_of_ne_nil _ (by simp)] at hlast
  exact htail hlast

/-- A path that ends with an escape is that of no operation. -/
theorem proxyOperation_probe_nil (method : Text) (pathAtom : Option Text) :
    proxyOperation method (probe pathAtom []) = none := by
  rw [proxyOperation, inferEndpoint, if_neg (not_suffix_probe (by decide) (by decide)),
    if_neg (not_suffix_probe (by decide) (by decide)),
    if_neg (not_suffix_probe (by decide) (by decide))]
  exact ite_self _

theorem proxyOperation_probe (endpoint : Endpoint) (pathAtom : Option Text) :
    proxyOperation post (probe pathAtom (operationTail endpoint)) =
      some (operationName endpoint) := by
  have hsuffix : operationTail endpoint <:+ probe pathAtom (operationTail endpoint) :=
    ⟨base pathAtom ++ ['%', '2', 'f'], by rw [List.append_assoc]; rfl⟩
  rw [proxyOperation, inferEndpoint_of_suffix hsuffix]
  rfl

/-! ## Generic methods -/

theorem generic_method (h : CanonicalMatch matcher) (hmethod : ∀ c ∈ method, c.isLower = false) :
    Generic (· == ·) eqIgnoreAsciiCase matcher.methods (some method) method := by
  intro candidate hmem heq
  refine ⟨method, rfl, beq_iff_eq.mpr ?_⟩
  exact Ascii.lower_inj (h.methods candidate hmem).noLower hmethod (of_decide_eq_true heq)

/-- A method that is longer than all of the earlier bindings. -/
def freshMethod (before : List HttpBindingPlan) : Text :=
  List.replicate (((before.flatMap fun earlier => earlier.matcher.methods).map List.length).sum + 1)
    'A'

theorem generic_freshMethod {earlier : HttpBindingPlan} (hmem : earlier ∈ before) :
    Generic (· == ·) eqIgnoreAsciiCase earlier.matcher.methods none (freshMethod before) := by
  intro candidate hcandidate heq
  have hlen := congrArg List.length (of_decide_eq_true heq)
  rw [Ascii.length_lower, Ascii.length_lower, freshMethod, List.length_replicate] at hlen
  have hmethod : candidate ∈ before.flatMap fun earlier => earlier.matcher.methods :=
    List.mem_flatMap.mpr ⟨earlier, hmem, hcandidate⟩
  have hle := List.le_sum_of_mem (List.mem_map_of_mem (f := List.length) hmethod)
  omega

theorem token_freshMethod (before : List HttpBindingPlan) :
    freshMethod before ≠ [] ∧ ∀ c ∈ freshMethod before, isHttpTokenChar c = true := by
  refine ⟨List.cons_ne_nil _ _, ?_⟩
  intro c hc
  rw [List.eq_of_mem_replicate hc]
  decide

/-! ## What leaves room is reachable -/

/-- What a matcher takes of generic values it covers. -/
theorem covers_of_httpMatches {host : CanonicalHost} {path : Text} {operation : Option String}
    {pathAtom methodAtom : Option Text}
    (hpath : Generic pathCovers List.isPrefixOf matcher.pathPrefixes pathAtom path)
    (hmethod : Generic (· == ·) eqIgnoreAsciiCase matcher.methods methodAtom method)
    (h : httpMatches matcher (some host) method path operation = true) :
    covers matcher host pathAtom methodAtom operation = true := by
  obtain ⟨hhosts, hpaths, hmethods, hoperations⟩ := httpMatches_iff.mp h
  have hoperation : Generic (· == ·) operationMeets matcher.operations operation operation := by
    intro candidate _ hmeets
    obtain ⟨operation', rfl, hname⟩ := (Option.any_eq_true _ _).mp hmeets
    exact ⟨operation', rfl, hname⟩
  rw [covers]
  simp only [Bool.and_eq_true]
  exact ⟨⟨⟨hhosts, Dimension.subsumesAtom_of_admits hpath hpaths⟩,
    Dimension.subsumesAtom_of_admits hmethod hmethods⟩,
    Dimension.subsumesAtom_of_admits hoperation hoperations⟩

theorem reachable_of_leavesRoom {env : Syntax} {binding : HttpBindingPlan}
    (hbefore : ∀ earlier ∈ before, CanonicalMatch earlier.matcher)
    (hbinding : CanonicalMatch binding.matcher) (h : LeavesRoom env before binding.matcher) :
    Reachable env before binding := by
  obtain ⟨host, hcanonical, hhosts, pathAtom, hpathAtom, hroom⟩ := h
  have hatom := mem_atoms_canonical hbinding hpathAtom
  -- a method and the end of a path, generic for what is left uncovered
  suffices hprobe : ∃ method tail methodAtom,
      (method ≠ [] ∧ ∀ c ∈ method, isHttpTokenChar c = true) ∧ '%' ∉ tail ∧
      (∀ c ∈ tail, isPathChar c = true) ∧
      admits eqIgnoreAsciiCase binding.matcher.methods method = true ∧
      admits operationMeets binding.matcher.operations
        (proxyOperation method (probe pathAtom tail)) = true ∧
      ∀ earlier ∈ before,
        Generic (· == ·) eqIgnoreAsciiCase earlier.matcher.methods methodAtom method ∧
        covers earlier.matcher host pathAtom methodAtom
          (proxyOperation method (probe pathAtom tail)) = false by
    obtain ⟨method, tail, methodAtom, htoken, hplain, hchars, hmethods, hoperations, hnone⟩ := hprobe
    refine ⟨{ host := host, method := method, path := probe pathAtom tail, canonical := hcanonical,
              token := htoken, absolute := head?_probe hatom tail,
              escaped := escaped_probe hatom hplain, chars := isPathChar_probe hatom hchars },
      httpMatches_iff.mpr ⟨hhosts, admits_probe hpathAtom tail, hmethods, hoperations⟩, ?_⟩
    intro earlier hmem
    obtain ⟨hgeneric, huncovered⟩ := hnone earlier hmem
    apply Bool.eq_false_iff.mpr
    intro htakes
    have hcovers := covers_of_httpMatches (generic_probe hatom (hbefore earlier hmem) tail) hgeneric
      htakes
    rw [huncovered] at hcovers
    cases hcovers
  rcases hroom with ⟨hnil, methodAtom, hmethodAtom, huncovered⟩ | ⟨endpoint, hmem, hpost, huncovered⟩
  · have hoperations : ∀ method, admits operationMeets binding.matcher.operations
        (proxyOperation method (probe pathAtom [])) = true := by
      intro method
      rw [hnil]
      rfl
    cases methodAtom with
    | none =>
      refine ⟨freshMethod before, [], none, token_freshMethod before, List.not_mem_nil,
        List.forall_mem_nil _, ?_, hoperations _, ?_⟩
      · rw [Dimension.mem_atoms.mp hmethodAtom]
        rfl
      · intro earlier hmem
        rw [proxyOperation_probe_nil]
        exact ⟨generic_freshMethod hmem, huncovered earlier hmem⟩
    | some method =>
      have hmember := Dimension.mem_atoms.mp hmethodAtom
      have hmethod := hbinding.methods method hmember
      refine ⟨method, [], some method, ⟨hmethod.nonempty, hmethod.token⟩,
        List.not_mem_nil, List.forall_mem_nil _, ?_, hoperations _, ?_⟩
      · exact Dimension.admits_iff.mpr (Or.inr ⟨method, hmember, decide_eq_true rfl⟩)
      · intro earlier hmem
        rw [proxyOperation_probe_nil]
        exact ⟨generic_method (hbefore earlier hmem) hmethod.noLower, huncovered earlier hmem⟩
  · refine ⟨post, operationTail endpoint, some post, ⟨by decide, ?_⟩, ?_, ?_, hpost, ?_, ?_⟩
    · exact Ascii.forall_mem_of_all (by decide)
    · cases endpoint <;> decide
    · cases endpoint <;> exact Ascii.forall_mem_of_all (by decide)
    · rw [proxyOperation_probe]
      exact Dimension.admits_iff.mpr (Or.inr ⟨_, hmem, beq_self_eq_true _⟩)
    · intro earlier hearlier
      rw [proxyOperation_probe]
      exact ⟨generic_method (hbefore earlier hearlier) (Ascii.forall_mem_of_all (by decide)),
        huncovered earlier hearlier⟩

/-! ## Compiled listeners -/

section

variable {env : Syntax}

/-- The matchers of a compiled proxy are canonical. -/
theorem canonicalMatch_of_compileListeners {raw : RawConfig} {source : String}
    {profiles : List String} {plans : BTreeMap String (ListenerPlan env.SocketAddr)}
    (h : compileListeners env raw source profiles = .ok plans) {id : String}
    {plan : ForwardProxyListenerPlan env.SocketAddr} (hplan : (id, .forwardProxy plan) ∈ plans) :
    ∀ binding ∈ plan.httpBindings, CanonicalMatch binding.matcher := by
  intro binding hbinding
  obtain ⟨-, -, h⟩ := Except.bind_eq_ok.mp h
  obtain ⟨drafts, -, h⟩ := Except.bind_eq_ok.mp h
  obtain ⟨bindings, hbindings, h⟩ := Except.bind_eq_ok.mp h
  obtain ⟨rules, -, h⟩ := Except.bind_eq_ok.mp h
  obtain ⟨draft, -, hfinish⟩ := Except.mem_of_mapM_eq_ok h hplan
  have hplans : ∃ l, plan.httpBindings = (bindings.plans.get l).getD [] := by
    unfold finishListener at hfinish
    dsimp only at hfinish
    split at hfinish
    · cases hfinish
    · obtain ⟨-, -, hpure⟩ := Except.bind_eq_ok.mp hfinish
      cases hpure
      exact ⟨_, rfl⟩
  obtain ⟨l, hl⟩ := hplans
  rw [hl] at hbinding
  obtain ⟨rawBinding, -, -, hcompile⟩ := (rulesOf_bindings hbindings).plans l binding hbinding
  exact canonicalMatch_of_ok hcompile

/-- **When a binding of a compiled proxy can fire.** -/
theorem reachable_iff {raw : RawConfig} {source : String} {profiles : List String}
    {plans : BTreeMap String (ListenerPlan env.SocketAddr)}
    (h : compileListeners env raw source profiles = .ok plans) {id : String}
    {plan : ForwardProxyListenerPlan env.SocketAddr} (hplan : (id, .forwardProxy plan) ∈ plans)
    {before after : List HttpBindingPlan} {binding : HttpBindingPlan}
    (hsplit : plan.httpBindings = before ++ binding :: after) :
    Reachable env before binding ↔ LeavesRoom env before binding.matcher := by
  have hcanonical := canonicalMatch_of_compileListeners h hplan
  rw [hsplit] at hcanonical
  refine ⟨leavesRoom_of_reachable, reachable_of_leavesRoom ?_ ?_⟩
  · intro earlier hmem
    exact hcanonical earlier (List.mem_append_left _ hmem)
  · exact hcanonical binding (List.mem_append_right _ List.mem_cons_self)

end

/-! ## A binding that can never fire -/

/-- Chat completions that are asked for with `GET`. -/
def getChat : RawBinding where
  id := "get-chat"
  listener := "proxy"
  action := .reject
  hosts := []
  pathPrefixes := []
  methods := ["GET"]
  operations := ["chat_completions"]

def getChatPlan : HttpBindingPlan where
  id := "get-chat"
  matcher := { hosts := [], pathPrefixes := [], methods := ["GET".toList],
               operations := ["chat_completions"] }
  action := .reject

def proxyOf (httpBindings : List HttpBindingPlan) :
    ForwardProxyListenerPlan localSyntax.SocketAddr where
  bind := (8080 : Nat)
  clientAuth := .none
  requestBodyMaxBytes := 1024
  httpBindings := httpBindings
  defaultHttpAction := .reject
  connectRules := []
  defaultConnectAction := .tunnel
  tls := none

theorem compileListeners_getChat :
    compileListeners localSyntax (proxyWith [getChat]) "config.toml" [] =
      .ok [("proxy", .forwardProxy (proxyOf [getChatPlan]))] := by
  rfl

/-- Everything that is posted, and then messages, which are posted. -/
def postThenMessages : List RawBinding :=
  [{ getChat with id := "post", methods := ["POST"], operations := [] },
    { getChat with id := "messages", methods := [], operations := ["messages"] }]

def postPlan : HttpBindingPlan where
  id := "post"
  matcher := { hosts := [], pathPrefixes := [], methods := [post], operations := [] }
  action := .reject

def messagesPlan : HttpBindingPlan where
  id := "messages"
  matcher := { hosts := [], pathPrefixes := [], methods := [], operations := ["messages"] }
  action := .reject

theorem compileListeners_postThenMessages :
    compileListeners localSyntax (proxyWith postThenMessages) "config.toml" [] =
      .ok [("proxy", .forwardProxy (proxyOf [postPlan, messagesPlan]))] := by
  rfl

theorem reachable_iff_postThenMessages : ¬ Reachable localSyntax [postPlan] messagesPlan := by
  have hiff := @reachable_iff localSyntax (proxyWith postThenMessages) "config.toml" [] _
    compileListeners_postThenMessages "proxy" (proxyOf [postPlan, messagesPlan])
    List.mem_cons_self [postPlan] [] messagesPlan rfl
  rw [hiff]
  rintro ⟨host, -, -, pathPrefix, -, ⟨hnil, -⟩ | ⟨endpoint, -, -, huncovered⟩⟩
  · cases hnil
  · have hcovered : covers postPlan.matcher host pathPrefix (some post)
        (some (operationName endpoint)) = true := by
      cases pathPrefix <;> rfl
    rw [huncovered postPlan List.mem_cons_self] at hcovered
    cases hcovered

/-- The compiler accepts a binding that no request can have. -/
theorem getChat_unreachable :
    ¬ ∀ (env : Syntax) (raw : RawConfig) (source : String) (profiles : List String)
      (plans : BTreeMap String (ListenerPlan env.SocketAddr)) (id : String)
      (plan : ForwardProxyListenerPlan env.SocketAddr) (before after : List HttpBindingPlan)
      (binding : HttpBindingPlan),
      compileListeners env raw source profiles = .ok plans → (id, .forwardProxy plan) ∈ plans →
      plan.httpBindings = before ++ binding :: after → Reachable env before binding := by
  intro hall
  have hreachable := hall localSyntax (proxyWith [getChat]) "config.toml" [] _ "proxy"
    (proxyOf [getChatPlan]) [] [] getChatPlan compileListeners_getChat List.mem_cons_self rfl
  obtain ⟨_, _, _, _, _, hroom⟩ := leavesRoom_of_reachable hreachable
  rcases hroom with ⟨hnil, -⟩ | ⟨_, -, hpost, -⟩
  · cases hnil
  · exact absurd hpost (by decide)

end Tokn.Router

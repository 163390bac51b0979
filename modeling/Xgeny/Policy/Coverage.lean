import Xgeny.Policy.Pointers

set_option autoImplicit false

/-!
# What a permission request covers

The permission request of an invocation is derived from its arguments, and the arguments that will be
executed are the normalized ones. The two belong together.

* `Gathered`: what the loop over the selectors has collected;
* `normalize_settled`: the canonical resources are in their places, whatever the order of the writes;
* **`resolution_covers_execution`**: the request names exactly the resources of the normalized
  arguments, and resolving these again gives the same request.
-/

namespace Xgeny

/-! ## Selectors -/

section

variable {resolver : ResourceResolver} {arguments : Json} {selector : ResourceSelector}
  {canonical : String}

theorem Json.asStr_eq_string {value : Json} {s : String} : value.asStr = some s ↔ value = .string s := by
  cases value <;> simp [Json.asStr]

theorem resolveSelectedResource_eq_ok :
    resolveSelectedResource resolver arguments selector = .ok canonical ↔
      ∃ raw, arguments.pointer selector.argumentPointer = some (.string raw) ∧ raw ≠ "" ∧
        resolver selector.scope raw = .ok canonical ∧ canonical ≠ "" := by
  simp only [resolveSelectedResource, Outcome.bind_eq_ok, Outcome.okOr_eq_ok, Outcome.exists_unit,
    Outcome.failIf_eq_ok]
  constructor
  · rintro ⟨value, hvalue, raw, hraw, hne, h⟩
    rw [Json.asStr_eq_string] at hraw
    subst hraw
    split at h
    · exact absurd h Outcome.fail_eq_ok
    · rename_i found hfound
      simp only [Outcome.bind_eq_ok, Outcome.exists_unit, Outcome.failIf_eq_ok,
        Outcome.pure_eq_ok] at h
      obtain ⟨hcanonical, rfl⟩ := h
      exact ⟨raw, hvalue, hne, hfound, hcanonical⟩
  · rintro ⟨raw, hvalue, hne, hfound, hcanonical⟩
    refine ⟨_, hvalue, raw, rfl, hne, ?_⟩
    rw [hfound]
    simp [hcanonical, Outcome.failIf]

/-- What a loop over the selectors in `seen` has collected. -/
structure Gathered (resolver : ResourceResolver) (arguments : Json) (seen : List ResourceSelector)
    (acc : SelectorAccumulator) : Prop where
  resolved : ∀ selector ∈ seen, ∃ canonical,
    resolveSelectedResource resolver arguments selector = .ok canonical ∧
      acc.canonicalByPointer[selector.argumentPointer]? = some canonical
  entries : ∀ pointer canonical, acc.canonicalByPointer[pointer]? = some canonical →
    ∃ selector ∈ seen, selector.argumentPointer = pointer ∧
      resolveSelectedResource resolver arguments selector = .ok canonical
  scopes : ∀ scope, scope ∈ acc.requestedScopes ↔ ∃ selector ∈ seen, selector.scope = scope
  resources : ∀ resource : ConcreteResource, resource.key ∈ acc.resources ↔
    ∃ selector ∈ seen, selector.scope = resource.scope ∧
      resolveSelectedResource resolver arguments selector = .ok resource.canonicalResource

theorem ConcreteResource.key_injective {resource resource' : ConcreteResource}
    (h : resource.key = resource'.key) : resource = resource' := by
  obtain ⟨scope, canonicalResource⟩ := resource
  obtain ⟨scope', canonicalResource'⟩ := resource'
  obtain ⟨rfl, rfl⟩ := Prod.mk.inj (toLex.injective h)
  rfl

theorem Gathered.empty : Gathered resolver arguments [] {} where
  resolved := by simp
  entries := by simp
  scopes := by simp
  resources := by simp

theorem Gathered.snoc {seen : List ResourceSelector} {acc acc' : SelectorAccumulator}
    (hseen : Gathered resolver arguments seen acc)
    (h : resolveSelector resolver arguments acc selector = .ok acc') :
    Gathered resolver arguments (seen ++ [selector]) acc' := by
  simp only [resolveSelector, Outcome.bind_eq_ok, Outcome.exists_unit, Outcome.whenSome_eq_ok,
    Outcome.failIf_eq_ok, Outcome.pure_eq_ok, not_not] at h
  obtain ⟨canonical, hcanonical, hsame, -, rfl⟩ := h
  refine ⟨?_, ?_, ?_, ?_⟩
  · intro s hs
    rcases List.mem_append.mp hs with hs | hs
    · obtain ⟨c, hc, hfound⟩ := hseen.resolved s hs
      refine ⟨c, hc, ?_⟩
      by_cases hpointer : selector.argumentPointer = s.argumentPointer
      · -- the same pointer has the same canonical resource
        rw [← hpointer] at hfound ⊢
        rw [hsame c hfound]
        exact Std.ExtTreeMap.getElem?_insert_self
      · rw [BTreeMap.get_insert_ne _ _ hpointer]
        exact hfound
    · obtain rfl := List.mem_singleton.mp hs
      exact ⟨canonical, hcanonical, Std.ExtTreeMap.getElem?_insert_self⟩
  · intro pointer c hfound
    by_cases hpointer : selector.argumentPointer = pointer
    · subst hpointer
      rw [Std.ExtTreeMap.getElem?_insert_self, Option.some.injEq] at hfound
      exact ⟨selector, by simp, rfl, hfound ▸ hcanonical⟩
    · rw [BTreeMap.get_insert_ne _ _ hpointer] at hfound
      obtain ⟨s, hs, heq, hc⟩ := hseen.entries pointer c hfound
      exact ⟨s, List.mem_append_left _ hs, heq, hc⟩
  · intro scope
    rw [BTreeSet.mem_insert_iff, hseen.scopes]
    simp only [List.mem_append, List.mem_singleton, or_and_right, exists_or, exists_eq_left]
    exact or_comm
  · intro resource
    rw [BTreeSet.mem_insert_iff, hseen.resources]
    simp only [List.mem_append, List.mem_singleton, or_and_right, exists_or, exists_eq_left]
    rw [or_comm]
    apply or_congr_right
    constructor
    · intro hkey
      obtain rfl := ConcreteResource.key_injective hkey
      exact ⟨rfl, hcanonical⟩
    · rintro ⟨hscope, hresolved⟩
      obtain rfl := Except.ok.inj (hcanonical.symm.trans hresolved)
      rw [hscope]

theorem gathered_of_foldl {selectors : List ResourceSelector} {acc : SelectorAccumulator}
    (h : Outcome.foldl (resolveSelector resolver arguments) {} selectors = .ok acc) :
    Gathered resolver arguments selectors acc :=
  Outcome.foldl_induction (I := Gathered resolver arguments) .empty
    (fun _ _ _ _ _ hseen hstep => hseen.snoc hstep) h

end

/-! ## Places -/

/-- Neither pointer names a position inside of the other. -/
def Apart (pointer pointer' : String) : Prop :=
  ∀ tokens tokens', pointerTokens pointer = some tokens → pointerTokens pointer' = some tokens' →
    ¬ tokens <+: tokens' ∧ ¬ tokens' <+: tokens

section

variable {value normalized : Json} {entry entry' : String × String} {pointer pointer' s s' : String}
  {entries : List (String × String)} {tokens : List String}

theorem pointer_eq_some {found : Json} : value.pointer pointer = some found ↔
    ∃ tokens, pointerTokens pointer = some tokens ∧ Json.get tokens value = some found :=
  Option.bind_eq_some_iff

theorem apart_of_strings (hvalid : isArgumentPointer pointer = true)
    (hvalid' : isArgumentPointer pointer' = true) (hne : pointer ≠ pointer')
    (h : value.pointer pointer = some (.string s)) (h' : value.pointer pointer' = some (.string s')) :
    Apart pointer pointer' := by
  obtain ⟨first, hfirst, hget⟩ := pointer_eq_some.mp h
  obtain ⟨second, hsecond, hget'⟩ := pointer_eq_some.mp h'
  intro tokens tokens' htokens htokens'
  obtain rfl : first = tokens := Option.some.inj (hfirst.symm.trans htokens)
  obtain rfl : second = tokens' := Option.some.inj (hsecond.symm.trans htokens')
  have hdifferent : first ≠ second := by
    rintro rfl
    exact hne (pointerTokens_injective hvalid hvalid' hfirst hsecond)
  constructor
  · intro hprefix
    have hnone := Json.get_below_string hget hdifferent hprefix
    rw [hget'] at hnone
    exact absurd hnone (by simp)
  · intro hprefix
    have hnone := Json.get_below_string hget' hdifferent.symm hprefix
    rw [hget] at hnone
    exact absurd hnone (by simp)

theorem normalizeResourceArgument_eq_ok : normalizeResourceArgument value entry = .ok normalized ↔
    ∃ tokens, pointerTokens entry.1 = some tokens ∧
      Json.set tokens value (.string entry.2) = some normalized := by
  rw [normalizeResourceArgument, Outcome.okOr_eq_ok, Json.setPointer, Option.bind_eq_some_iff]

theorem settled_step (hsettled : normalizeResourceArgument value entry' = .ok value)
    (hapart : Apart entry'.1 entry.1) (h : normalizeResourceArgument value entry = .ok normalized) :
    normalizeResourceArgument normalized entry' = .ok normalized := by
  rw [normalizeResourceArgument_eq_ok] at hsettled h ⊢
  obtain ⟨other, hother, hsame⟩ := hsettled
  obtain ⟨tokens, htokens, hset⟩ := h
  obtain ⟨habove, hbelow⟩ := hapart other tokens hother htokens
  exact ⟨other, hother, Json.settled_set_apart hsame hset hbelow habove⟩

theorem settled_foldl (hsettled : normalizeResourceArgument value entry = .ok value)
    (hapart : ∀ entry' ∈ entries, Apart entry.1 entry'.1)
    (h : Outcome.foldl normalizeResourceArgument value entries = .ok normalized) :
    normalizeResourceArgument normalized entry = .ok normalized := by
  induction entries generalizing value with
  | nil =>
    obtain rfl := Except.ok.inj h
    exact hsettled
  | cons entry' rest ih =>
    rw [Outcome.foldl, Outcome.bind_eq_ok] at h
    obtain ⟨next, hnext, hrest⟩ := h
    have hkept := settled_step hsettled (hapart entry' List.mem_cons_self) hnext
    exact ih hkept (fun other hother => hapart other (List.mem_cons_of_mem _ hother)) hrest

/-- **Every entry is in its place** after the loop, and writing it again changes nothing. -/
theorem normalize_settled (hapart : entries.Pairwise fun a b => Apart a.1 b.1)
    (h : Outcome.foldl normalizeResourceArgument value entries = .ok normalized) :
    ∀ entry ∈ entries, normalizeResourceArgument normalized entry = .ok normalized := by
  induction entries generalizing value with
  | nil => simp
  | cons first rest ih =>
    rw [Outcome.foldl, Outcome.bind_eq_ok] at h
    obtain ⟨next, hnext, hrest⟩ := h
    obtain ⟨hfirst, hothers⟩ := List.pairwise_cons.mp hapart
    intro entry hentry
    rcases List.mem_cons.mp hentry with rfl | hentry
    · have hsettled : normalizeResourceArgument next entry = .ok next := by
        rw [normalizeResourceArgument_eq_ok] at hnext ⊢
        obtain ⟨tokens, htokens, hset⟩ := hnext
        exact ⟨tokens, htokens, Json.settled_set hset⟩
      exact settled_foldl hsettled hfirst hrest
    · exact ih hothers hrest entry hentry

theorem pointer_of_settled (h : normalizeResourceArgument normalized entry = .ok normalized) :
    normalized.pointer entry.1 = some (.string entry.2) := by
  obtain ⟨tokens, htokens, hset⟩ := normalizeResourceArgument_eq_ok.mp h
  exact pointer_eq_some.mpr ⟨tokens, htokens, Json.get_set hset⟩

theorem normalize_again
    (h : ∀ entry ∈ entries, normalizeResourceArgument normalized entry = .ok normalized) :
    Outcome.foldl normalizeResourceArgument normalized entries = .ok normalized := by
  induction entries with
  | nil => rfl
  | cons entry rest ih =>
    rw [Outcome.foldl, h entry List.mem_cons_self, Outcome.bind_eq_ok]
    exact ⟨normalized, rfl, ih fun other hother => h other (List.mem_cons_of_mem _ hother)⟩

theorem normalize_get (h : Outcome.foldl normalizeResourceArgument value entries = .ok normalized)
    (hbelow : ∀ entry ∈ entries, ∀ place, pointerTokens entry.1 = some place → ¬ place <+: tokens)
    (habove : ∀ entry ∈ entries, ∀ place, pointerTokens entry.1 = some place → ¬ tokens <+: place) :
    Json.get tokens normalized = Json.get tokens value := by
  induction entries generalizing value with
  | nil => rw [Except.ok.inj h]
  | cons entry rest ih =>
    rw [Outcome.foldl, Outcome.bind_eq_ok] at h
    obtain ⟨next, hnext, hrest⟩ := h
    obtain ⟨place, hplace, hset⟩ := normalizeResourceArgument_eq_ok.mp hnext
    rw [ih hrest (fun other hother => hbelow other (List.mem_cons_of_mem _ hother))
      (fun other hother => habove other (List.mem_cons_of_mem _ hother))]
    exact Json.get_set_apart hset (hbelow entry List.mem_cons_self place hplace)
      (habove entry List.mem_cons_self place hplace)

theorem normalize_shell (h : Outcome.foldl normalizeResourceArgument value entries = .ok normalized)
    (hbelow : ∀ entry ∈ entries, ∀ place, pointerTokens entry.1 = some place → ¬ place <+: tokens) :
    (Json.get tokens normalized).map Json.shell = (Json.get tokens value).map Json.shell := by
  induction entries generalizing value with
  | nil => rw [Except.ok.inj h]
  | cons entry rest ih =>
    rw [Outcome.foldl, Outcome.bind_eq_ok] at h
    obtain ⟨next, hnext, hrest⟩ := h
    obtain ⟨place, hplace, hset⟩ := normalizeResourceArgument_eq_ok.mp hnext
    rw [ih hrest fun other hother => hbelow other (List.mem_cons_of_mem _ hother)]
    exact Json.shell_set hset (hbelow entry List.mem_cons_self place hplace)

end

/-! ## The derived request -/

section

variable {resolver : ResourceResolver} {arguments normalized : Json}
  {selectors : List ResourceSelector} {acc : SelectorAccumulator}

/-- The resolver keeps what it has made canonical. -/
def Idempotent (resolver : ResourceResolver) : Prop :=
  ∀ scope raw canonical, resolver scope raw = .ok canonical →
    resolver scope canonical = .ok canonical

theorem Gathered.apart (hacc : Gathered resolver arguments selectors acc)
    (hvalid : ∀ selector ∈ selectors, isArgumentPointer selector.argumentPointer = true) :
    acc.canonicalByPointer.toList.Pairwise fun a b => Apart a.1 b.1 := by
  have htexts : ∀ entry ∈ acc.canonicalByPointer.toList, isArgumentPointer entry.1 = true ∧
      ∃ raw, arguments.pointer entry.1 = some (.string raw) := by
    rintro ⟨pointer, canonical⟩ hentry
    obtain ⟨selector, hmem, rfl, hresolved⟩ := hacc.entries pointer canonical
      (Std.ExtTreeMap.mem_toList_iff_getElem?_eq_some.mp hentry)
    obtain ⟨raw, hraw, -⟩ := resolveSelectedResource_eq_ok.mp hresolved
    exact ⟨hvalid selector hmem, raw, hraw⟩
  refine (Std.ExtTreeMap.distinct_keys_toList (t := acc.canonicalByPointer)).imp_of_mem ?_
  intro a b ha hb hdistinct
  obtain ⟨hvalidA, rawA, hrawA⟩ := htexts a ha
  obtain ⟨hvalidB, rawB, hrawB⟩ := htexts b hb
  apply apart_of_strings hvalidA hvalidB _ hrawA hrawB
  intro heq
  exact hdistinct (Std.LawfulEqCmp.compare_eq_iff_eq.mpr heq)

theorem Gathered.place (hacc : Gathered resolver arguments selectors acc)
    (hsettled : ∀ entry ∈ acc.canonicalByPointer.toList,
      normalizeResourceArgument normalized entry = .ok normalized)
    {selector : ResourceSelector} (hmem : selector ∈ selectors) :
    ∃ canonical, resolveSelectedResource resolver arguments selector = .ok canonical ∧
      normalized.pointer selector.argumentPointer = some (.string canonical) := by
  obtain ⟨canonical, hresolved, hfound⟩ := hacc.resolved selector hmem
  have hentry : (selector.argumentPointer, canonical) ∈ acc.canonicalByPointer.toList :=
    Std.ExtTreeMap.mem_toList_iff_getElem?_eq_some.mpr hfound
  exact ⟨canonical, hresolved, pointer_of_settled (hsettled _ hentry)⟩

theorem resolve_again (hidem : Idempotent resolver) {selector : ResourceSelector}
    {canonical : String} (h : resolveSelectedResource resolver arguments selector = .ok canonical)
    (hplace : normalized.pointer selector.argumentPointer = some (.string canonical)) :
    resolveSelectedResource resolver normalized selector = .ok canonical := by
  obtain ⟨raw, -, -, hresolved, hne⟩ := resolveSelectedResource_eq_ok.mp h
  exact resolveSelectedResource_eq_ok.mpr
    ⟨canonical, hplace, hne, hidem _ _ _ hresolved, hne⟩

theorem foldl_again (hidem : Idempotent resolver)
    (hplace : ∀ selector ∈ selectors, ∃ canonical,
      resolveSelectedResource resolver arguments selector = .ok canonical ∧
        normalized.pointer selector.argumentPointer = some (.string canonical))
    (h : Outcome.foldl (resolveSelector resolver arguments) {} selectors = .ok acc) :
    Outcome.foldl (resolveSelector resolver normalized) {} selectors = .ok acc := by
  have hsame : ∀ selector ∈ selectors, ∀ b c b', b = c →
      resolveSelector resolver arguments b selector = .ok b' →
        ∃ c', resolveSelector resolver normalized c selector = .ok c' ∧ b' = c' := by
    rintro selector hmem b _ b' rfl hstep
    obtain ⟨canonical, hresolved, hfound⟩ := hplace selector hmem
    refine ⟨b', ?_, rfl⟩
    rw [resolveSelector, resolve_again hidem hresolved hfound, ← hstep, resolveSelector, hresolved]
  obtain ⟨acc', hagain, rfl⟩ := Outcome.foldl_simulates hsame rfl h
  exact hagain

end

theorem deriveInvocationResources_eq_ok {resolver : ResourceResolver}
    {definition : CapabilityDefinitionBody} {arguments : Json} {derived : DerivedInvocationResources} :
    deriveInvocationResources resolver definition arguments = .ok derived ↔
      ∃ acc, Outcome.foldl (resolveSelector resolver arguments) {}
          (definition.spec.effect.resourceSelectors.insertionSort selectorBefore) = .ok acc ∧
        Outcome.foldl normalizeResourceArgument arguments acc.canonicalByPointer.toList =
            .ok derived.normalizedArguments ∧
          derived.requestedScopes = acc.requestedScopes.toList ∧
            derived.resources =
              acc.resources.toList.map fun key => ⟨(ofLex key).1, (ofLex key).2⟩ := by
  simp only [deriveInvocationResources, normalizeResourceArguments, Outcome.bind_eq_ok,
    Outcome.pure_eq_ok]
  constructor
  · rintro ⟨acc, hacc, normalized, hnormalized, rfl⟩
    exact ⟨acc, hacc, hnormalized, rfl, rfl⟩
  · rintro ⟨acc, hacc, hnormalized, hscopes, hresources⟩
    refine ⟨acc, hacc, _, hnormalized, ?_⟩
    rw [← hscopes, ← hresources]

theorem deriveInvocationResources_again {resolver : ResourceResolver}
    {definition : CapabilityDefinitionBody} {arguments : Json} {derived : DerivedInvocationResources}
    (hvalid : ∀ selector ∈ definition.spec.effect.resourceSelectors,
      isArgumentPointer selector.argumentPointer = true) (hidem : Idempotent resolver)
    (h : deriveInvocationResources resolver definition arguments = .ok derived) :
    deriveInvocationResources resolver definition derived.normalizedArguments = .ok derived := by
  obtain ⟨acc, hacc, hnormalized, hscopes, hresources⟩ := deriveInvocationResources_eq_ok.mp h
  have hgathered := gathered_of_foldl hacc
  have hapart := hgathered.apart fun selector hs => hvalid selector ((List.mem_insertionSort _).mp hs)
  have hsettled := normalize_settled hapart hnormalized
  have hagain := foldl_again hidem (fun selector hs => hgathered.place hsettled hs) hacc
  exact deriveInvocationResources_eq_ok.mpr
    ⟨acc, hagain, normalize_again hsettled, hscopes, hresources⟩

theorem mem_resources {resource : ConcreteResource} {keys : BTreeSet (String ×ₗ String)} :
    resource ∈ keys.toList.map (fun key => (⟨(ofLex key).1, (ofLex key).2⟩ : ConcreteResource)) ↔
      resource.key ∈ keys := by
  rw [List.mem_map]
  constructor
  · rintro ⟨key, hkey, rfl⟩
    exact Std.ExtTreeSet.mem_toList.mp hkey
  · exact fun h => ⟨resource.key, Std.ExtTreeSet.mem_toList.mpr h, rfl⟩

/-- **The request covers exactly what is executed.** At every selector the normalized arguments have
the resource that the resolver returned for the raw argument, and all else is unchanged; the request
names the resources and scopes of the selectors and no others; and the normalized arguments have the
same request when the resolver is idempotent. -/
theorem resolution_covers_execution {resolver : ResourceResolver} {requestId runId stepId : String}
    {definition : CapabilityDefinitionBody} {arguments : Json} {requestedLifetime : GrantLifetime}
    {result : ResolvedInvocationRequest}
    (hvalid : ∀ selector ∈ definition.spec.effect.resourceSelectors,
      isArgumentPointer selector.argumentPointer = true)
    (h : resolveInvocation resolver requestId runId stepId definition arguments requestedLifetime =
      .ok result) :
    (∀ selector ∈ definition.spec.effect.resourceSelectors, ∃ raw canonical,
      arguments.pointer selector.argumentPointer = some (.string raw) ∧
        resolver selector.scope raw = .ok canonical ∧
          result.normalizedArguments.pointer selector.argumentPointer = some (.string canonical)) ∧
    (∀ tokens, (∀ selector ∈ definition.spec.effect.resourceSelectors,
        pointerTokens selector.argumentPointer ≠ some tokens) →
      (Json.get tokens result.normalizedArguments).map Json.shell =
        (Json.get tokens arguments).map Json.shell) ∧
    (∀ tokens, (∀ selector ∈ definition.spec.effect.resourceSelectors, ∀ place,
        pointerTokens selector.argumentPointer = some place → ¬ tokens <+: place) →
      Json.get tokens result.normalizedArguments = Json.get tokens arguments) ∧
    (∀ resource, resource ∈ result.permissionRequest.resources ↔
      ∃ selector ∈ definition.spec.effect.resourceSelectors, ∃ raw,
        selector.scope = resource.scope ∧
          arguments.pointer selector.argumentPointer = some (.string raw) ∧
            resolver selector.scope raw = .ok resource.canonicalResource) ∧
    (∀ scope, scope ∈ result.permissionRequest.requestedScopes ↔
      ∃ selector ∈ definition.spec.effect.resourceSelectors, selector.scope = scope) ∧
    (Idempotent resolver → resolveInvocation resolver requestId runId stepId definition
      result.normalizedArguments requestedLifetime = .ok result) := by
  simp only [resolveInvocation, Outcome.bind_eq_ok, Outcome.exists_unit, Outcome.pure_eq_ok] at h
  obtain ⟨hshape, derived, hderived, actions, hactions, rfl⟩ := h
  obtain ⟨acc, hacc, hnormalized, hscopes, hresources⟩ :=
    deriveInvocationResources_eq_ok.mp hderived
  set selectors := definition.spec.effect.resourceSelectors.insertionSort selectorBefore
    with hselectors
  have hmem : ∀ selector, selector ∈ selectors ↔
      selector ∈ definition.spec.effect.resourceSelectors := fun selector => List.mem_insertionSort _
  have hgathered := gathered_of_foldl hacc
  have hapart := hgathered.apart fun selector hs => hvalid selector ((hmem selector).mp hs)
  have hsettled := normalize_settled hapart hnormalized
  have hplaces : ∀ selector ∈ selectors, ∃ canonical,
      resolveSelectedResource resolver arguments selector = .ok canonical ∧
        derived.normalizedArguments.pointer selector.argumentPointer = some (.string canonical) :=
    fun selector hs => hgathered.place hsettled hs
  -- the places that the loop writes are those of the selectors, and hold texts before and after
  have hwritten : ∀ entry ∈ acc.canonicalByPointer.toList, ∀ place,
      pointerTokens entry.1 = some place →
        ∃ selector ∈ definition.spec.effect.resourceSelectors,
          pointerTokens selector.argumentPointer = some place := by
    rintro ⟨pointer, canonical⟩ hentry place hplace
    obtain ⟨selector, hs, rfl, -⟩ := hgathered.entries pointer canonical
      (Std.ExtTreeMap.mem_toList_iff_getElem?_eq_some.mp hentry)
    exact ⟨selector, (hmem selector).mp hs, hplace⟩
  have hinside : ∀ selector ∈ definition.spec.effect.resourceSelectors, ∀ place tokens,
      pointerTokens selector.argumentPointer = some place → place <+: tokens → place ≠ tokens →
        Json.get tokens derived.normalizedArguments = Json.get tokens arguments := by
    intro selector hs place tokens hplace hprefix hne
    obtain ⟨canonical, hresolved, hafter⟩ := hplaces selector ((hmem selector).mpr hs)
    obtain ⟨raw, hbefore, -⟩ := resolveSelectedResource_eq_ok.mp hresolved
    obtain ⟨found, hfound, hget⟩ := pointer_eq_some.mp hbefore
    obtain ⟨found', hfound', hget'⟩ := pointer_eq_some.mp hafter
    obtain rfl := Option.some.inj (hplace.symm.trans hfound)
    obtain rfl := Option.some.inj (hplace.symm.trans hfound')
    rw [Json.get_below_string hget hne hprefix, Json.get_below_string hget' hne hprefix]
  refine ⟨?_, ?_, ?_, ?_, ?_, ?_⟩
  · intro selector hs
    obtain ⟨canonical, hresolved, hafter⟩ := hplaces selector ((hmem selector).mpr hs)
    obtain ⟨raw, hbefore, -, hcanonical, -⟩ := resolveSelectedResource_eq_ok.mp hresolved
    exact ⟨raw, canonical, hbefore, hcanonical, hafter⟩
  · intro tokens hother
    by_cases hbelow : ∃ selector ∈ definition.spec.effect.resourceSelectors, ∃ place,
        pointerTokens selector.argumentPointer = some place ∧ place <+: tokens
    · obtain ⟨selector, hs, place, hplace, hprefix⟩ := hbelow
      rw [hinside selector hs place tokens hplace hprefix
        fun heq => hother selector hs (heq ▸ hplace)]
    · apply normalize_shell hnormalized
      intro entry hentry place hplace hprefix
      obtain ⟨selector, hs, hselector⟩ := hwritten entry hentry place hplace
      exact hbelow ⟨selector, hs, place, hselector, hprefix⟩
  · intro tokens hother
    by_cases hbelow : ∃ selector ∈ definition.spec.effect.resourceSelectors, ∃ place,
        pointerTokens selector.argumentPointer = some place ∧ place <+: tokens
    · obtain ⟨selector, hs, place, hplace, hprefix⟩ := hbelow
      apply hinside selector hs place tokens hplace hprefix
      rintro rfl
      exact hother selector hs place hplace List.prefix_rfl
    · apply normalize_get hnormalized
      · intro entry hentry place hplace hprefix
        obtain ⟨selector, hs, hselector⟩ := hwritten entry hentry place hplace
        exact hbelow ⟨selector, hs, place, hselector, hprefix⟩
      · intro entry hentry place hplace
        obtain ⟨selector, hs, hselector⟩ := hwritten entry hentry place hplace
        exact hother selector hs place hselector
  · intro resource
    rw [hresources, mem_resources, hgathered.resources]
    constructor
    · rintro ⟨selector, hs, hscope, hresolved⟩
      obtain ⟨raw, hbefore, -, hcanonical, -⟩ := resolveSelectedResource_eq_ok.mp hresolved
      exact ⟨selector, (hmem selector).mp hs, raw, hscope, hbefore, hcanonical⟩
    · rintro ⟨selector, hs, raw, hscope, hbefore, hcanonical⟩
      refine ⟨selector, (hmem selector).mpr hs, hscope, ?_⟩
      -- the resolver has one answer for the raw text
      obtain ⟨canonical, hresolved, -⟩ := hplaces selector ((hmem selector).mpr hs)
      obtain ⟨raw', hbefore', -, hcanonical', -⟩ := resolveSelectedResource_eq_ok.mp hresolved
      obtain rfl : raw' = raw := by
        rw [hbefore'] at hbefore
        simpa using hbefore
      rw [hresolved, ← Except.ok.inj (hcanonical.symm.trans hcanonical')]
  · intro scope
    rw [hscopes, Std.ExtTreeSet.mem_toList, hgathered.scopes]
    simp only [hmem]
  · intro hidem
    have hderived' := deriveInvocationResources_again hvalid hidem hderived
    simp only [resolveInvocation, Outcome.bind_eq_ok, Outcome.exists_unit, Outcome.pure_eq_ok]
    exact ⟨hshape, derived, hderived', actions, hactions, rfl⟩

/-- A definition whose one resource is the argument `path`. -/
def pathDefinition : CapabilityDefinitionBody where
  apiVersion := apiVersionV1alpha1
  extensions := ∅
  requiredExtensions := []
  metadata := ⟨"notes.read", "1.0.0", "Read notes", ∅⟩
  spec :=
    { summary := "Read a note"
      inputSchema := .null
      outputSchema := .null
      effect :=
        { class_ := .readOnly
          resourceSelectors := [⟨"notes.read", "/path"⟩]
          criticalActions := [] }
      requiredCapabilities := []
      execution := ⟨[.sync], false, true, true, 1000, 1000⟩
      verification := []
      discovery := none }

/-- A resolver that puts every note into one folder. -/
def folderResolver : ResourceResolver := fun _ raw => .ok ("notes/" ++ raw)

/-- The note that is executed is the resolved one. -/
theorem resolution_covers_execution_sample : ∃ result : ResolvedInvocationRequest,
    result.normalizedArguments.pointer "/path" = some (.string "notes/today") := by
  obtain ⟨result, hresult⟩ := Outcome.exists_ok_of_isSome
    (x := resolveInvocation folderResolver "request" "run" "step" pathDefinition
      (.object [("path", .string "today")]) .once) (by decide)
  have hvalid : ∀ selector ∈ pathDefinition.spec.effect.resourceSelectors,
      isArgumentPointer selector.argumentPointer = true := by
    decide
  obtain ⟨raw, canonical, hbefore, hresolved, hafter⟩ :=
    (resolution_covers_execution hvalid hresult).1 ⟨"notes.read", "/path"⟩ (List.mem_singleton_self _)
  have hraw : (Json.object [("path", .string "today")]).pointer "/path" = some (.string "today") := by
    decide
  obtain rfl : "today" = raw := by
    rw [hraw] at hbefore
    simpa using hbefore
  obtain rfl : "notes/today" = canonical := Except.ok.inj hresolved
  exact ⟨result, hafter⟩

end Xgeny

import ApiModel.Proofs.CrossReference.Linked
import ApiModel.Proofs.Keyed
import ApiModel.Proofs.Labelled
import ApiModel.Proofs.Pipeline

/-!
# The model that is built is stable

Each analysis runs at one point of the build, and later ones edit what it read.  None of them undoes
another: running an analysis again on the model that was built changes nothing.

Principal results:

* `applySelection_eq_self` — a selection that keeps everything changes nothing;
* `traits_of_settled` — the traits that a settled model caches are its own;
* `stable_of_createModel` — **a model that was built is stable** under cross-referencing, labelling and
  its own selection, and is valid.
-/

namespace ApiModel

open Outcome

namespace Api

variable {api : Api} {s : Selection} {c : Config}

/-! ## What a selection leaves -/

/-- The selection keeps everything in the model. -/
structure SelectedBy (api : Api) (s : Selection) : Prop where
  services : ∀ id ∈ api.services, s.keeps id = true
  messages : ∀ id ∈ api.messages, s.keeps id = true
  enums : ∀ id ∈ api.enums, s.keeps id = true
  methods : ∀ id a, api.service? id = some a → ∀ m ∈ a.methods, s.keepsMethod a.methods m = true
  nestedMessages : ∀ id m, api.message? id = some m → ∀ n ∈ m.messages, s.lists n = true
  nestedEnums : ∀ id m, api.message? id = some m → ∀ e ∈ m.enums, s.lists e = true

/-- Where nothing is skipped or included, everything is kept. -/
theorem selectedBy_of_nil (hskipped : s.skipped = []) (hincluded : s.included = []) (api : Api) :
    api.SelectedBy s := by
  have hlists : ∀ id, s.lists id = true := by
    intro id
    simp [Selection.lists, hskipped]
  have hkeeps : ∀ id, s.keeps id = true := by
    intro id
    simp [Selection.keeps, hlists, hincluded]
  refine ⟨fun id _ => hkeeps id, fun id _ => hkeeps id, fun id _ => hkeeps id, ?_,
    fun _ _ _ n _ => hlists n, fun _ _ _ e _ => hlists e⟩
  intro _ a _ m _
  simp [Selection.keepsMethod, hlists, hincluded]

theorem selectedBy_declared (h : api.declared.SelectedBy s) : api.SelectedBy s where
  services := h.services
  messages := h.messages
  enums := h.enums
  methods id a ha := h.methods id a.bare (by rw [service?_declared, ha]; rfl)
  nestedMessages id m hm := h.nestedMessages id m.bare (by rw [message?_declared, hm]; rfl)
  nestedEnums id m hm := h.nestedEnums id m.bare (by rw [message?_declared, hm]; rfl)

/-- Of the methods that stay, all stay. -/
theorem keepsMethod_restrict (a : Service) {id : String} (h : id ∈ (s.restrict a).methods) :
    s.keepsMethod (s.restrict a).methods id = true := by
  obtain ⟨-, hkeeps⟩ := List.mem_filter.1 h
  unfold Selection.keepsMethod at hkeeps ⊢
  rw [Bool.and_eq_true, Bool.or_eq_true] at hkeeps ⊢
  refine ⟨hkeeps.1, hkeeps.2.imp_left fun hnone => ?_⟩
  -- where no sibling is included, none of those that stay is
  simp only [Bool.not_eq_true', List.any_eq_false] at hnone ⊢
  intro x hx
  exact hnone x (List.mem_filter.1 hx).1

theorem selectedBy_applySelection (api : Api) (s : Selection) :
    (api.applySelection s).SelectedBy s where
  services _ h := (List.mem_filter.1 h).2
  messages _ h := (List.mem_filter.1 h).2
  enums _ h := (List.mem_filter.1 h).2
  methods id a ha m hm := by
    rw [service?_applySelection] at ha
    split at ha
    · cases ha
    · obtain ⟨b, -, rfl⟩ := Option.map_eq_some_iff.1 ha
      exact keepsMethod_restrict b hm
  nestedMessages id m hm n hn := by
    rw [message?_applySelection] at hm
    obtain ⟨o, -, rfl⟩ := Option.map_eq_some_iff.1 hm
    exact (List.mem_filter.1 hn).2
  nestedEnums id m hm e he := by
    rw [message?_applySelection] at hm
    obtain ⟨o, -, rfl⟩ := Option.map_eq_some_iff.1 hm
    exact (List.mem_filter.1 he).2

theorem keptServices_eq_self (h : api.SelectedBy s) :
    api.droppedServices s = [] ∧ api.keptServices s = api.registry.services := by
  have hdropped : api.droppedServices s = [] := by
    unfold droppedServices
    rw [List.filter_eq_nil_iff]
    intro id hid
    simp [h.services id hid]
  refine ⟨hdropped, IdMap.ext fun id => ?_⟩
  unfold keptServices
  rw [hdropped, IdMap.get?_filter]
  cases api.registry.services.get? id <;> rfl

theorem droppedMethods_eq_nil (h : api.SelectedBy s) : api.droppedMethods s = [] := by
  obtain ⟨hdropped, hkept⟩ := keptServices_eq_self h
  unfold droppedMethods
  rw [hdropped, hkept]
  simp only [List.filterMap_nil, List.flatMap_nil, List.nil_append, List.flatMap_eq_nil_iff]
  intro a ha
  obtain ⟨id, ha⟩ := IdMap.mem_values_iff.1 ha
  unfold Selection.lostBy
  rw [List.filter_eq_nil_iff]
  intro m hm
  simp [h.methods id a ha m hm]

/-- A selection that keeps everything changes nothing. -/
theorem applySelection_eq_self (h : api.SelectedBy s) : api.applySelection s = api := by
  have hkept := (keptServices_eq_self h).2
  have hservices : (api.registry.services.map fun _ a => s.restrict a) = api.registry.services := by
    rw [IdMap.map_eq_self_iff]
    intro id a ha
    unfold Selection.restrict
    rw [List.filter_eq_self.2 (h.methods id a ha)]
  have hmethods : (api.registry.methods.filter fun id _ => !(api.droppedMethods s).contains id) =
      api.registry.methods := by
    apply IdMap.ext
    intro id
    rw [droppedMethods_eq_nil h, IdMap.get?_filter]
    cases api.registry.methods.get? id <;> rfl
  have hmessages : (api.registry.messages.map fun _ m => { m with
      messages := m.messages.filter s.lists, enums := m.enums.filter s.lists }) =
        api.registry.messages := by
    rw [IdMap.map_eq_self_iff]
    intro id m hm
    rw [List.filter_eq_self.2 (h.nestedMessages id m hm),
      List.filter_eq_self.2 (h.nestedEnums id m hm)]
  unfold applySelection
  simp only [hkept, hservices, hmethods, hmessages, List.filter_eq_self.2 h.services,
    List.filter_eq_self.2 h.messages, List.filter_eq_self.2 h.enums]

/-! ## Traits -/

/-- In a settled model whose methods are keyed, the cached traits are those of the model. -/
theorem traits_of_methodsKeyed (hkeyed : api.registry.methods.KeyedBy (·.id)) (h : api.Settled)
    {id : String} {m : Method} (hm : api.method? id = some m) : m.traits = m.classify api := by
  have hidle : Idle enrichPass api := h _ (by simp [passes])
  have hlatest := (enrichPass_idle_iff.1 hidle).2.2 id m hm
  have hfound : (id, m.classify api) ∈ api.foundTraits := by
    refine List.mem_map.2 ⟨m, IdMap.mem_values_iff.2 ⟨id, hm⟩, ?_⟩
    have hid : m.id = id := hkeyed id m hm
    rw [hid]
  rw [← hlatest]
  refine IdMap.latest_eq m.traits ⟨_, hfound, rfl⟩ ?_
  intro t ht hid
  obtain ⟨n, hn, rfl⟩ := List.mem_map.1 ht
  obtain ⟨k, hk⟩ := IdMap.mem_values_iff.1 hn
  have hkey : n.id = k := hkeyed k n hk
  obtain rfl : k = id := hkey.symm.trans hid
  obtain rfl : m = n := Option.some.inj (hm.symm.trans hk)
  rfl

/-- In a settled model that is keyed, the cached traits are those of the model. -/
theorem traits_of_settled (hkeyed : api.Keyed) (h : api.Settled) {id : String} {m : Method}
    (hm : api.method? id = some m) : m.traits = m.classify api :=
  traits_of_methodsKeyed hkeyed.methods h hm

/-! ## The model that was built -/

theorem settled_of_analyse {raw : Api} (h : raw.analyse c = .ok api) : api.Settled := by
  have hlasting : Lasting Settled := fun _ _ he => settled_edit he
  obtain ⟨-, hsecond, -, -, found, hfound, rfl⟩ := analyse_eq_ok_iff.1 h
  have hdocumented : (raw.documented c).state.Settled :=
    hlasting.overrideDocumentations (settled_of_crossReference hsecond) c.documentationOverrides
  exact hlasting.applyOverrides (hlasting.identifyTargets hdocumented hfound) c

theorem labelled_of_analyse {raw : Api} (h : raw.analyse c = .ok api) : api.Labelled := by
  obtain ⟨-, -, -, -, found, hfound, rfl⟩ := analyse_eq_ok_iff.1 h
  have hselected : (raw.selected c).Labelled := by
    refine labelled_congr (contents_applySelection _ _) ?_ (labelled_labelRecursive _)
    exact IdMap.map_map _ _ _
  have hlinked : (raw.selected c).crossReference.state.Labelled :=
    labelled_congr (contents_of_declared (declared_crossReference _)) (labels_crossReference _)
      hselected
  have hdocumented : (raw.documented c).state.Labelled :=
    lasting_labelled.overrideDocumentations hlinked c.documentationOverrides
  exact lasting_labelled.applyOverrides (lasting_labelled.identifyTargets hdocumented hfound) c

theorem selectedBy_of_analyse {raw : Api} (h : raw.analyse c = .ok api) :
    api.SelectedBy c.selection := by
  apply selectedBy_declared
  rw [declared_of_analyse h]
  exact selectedBy_applySelection _ _

theorem keyed_of_analyse {raw : Api} (hkeyed : raw.Keyed) (h : raw.analyse c = .ok api) :
    api.Keyed := by
  rw [← keyed_declared, declared_of_analyse h]
  exact keyed_applySelection (keyed_declared.2 hkeyed) _

/-- Running an analysis again changes nothing, and what is cached is up to date. -/
structure Stable (c : Config) (api : Api) : Prop where
  crossReference : api.crossReference = ⟨api, none⟩
  traits : ∀ id m, api.method? id = some m → m.traits = m.classify api
  model : ∀ id a, api.service? id = some a → a.model = some api.name
  labelRecursive : api.labelRecursive = api
  selection : api.applySelection c.selection = api
  validate : api.validate = .ok ()

/-- **A model that was built is stable** under cross-referencing, labelling and the selection of its
configuration, and is valid. -/
theorem stable_of_createModel {ε : Type} {raw : Api} (hkeyed : raw.Keyed)
    (h : createModel c (.ok raw : Except ε Api) = .ok api) : api.Stable c := by
  obtain ⟨source, hsource, hanalyse⟩ := createModel_eq_ok_iff.1 h
  obtain rfl := Except.ok.inj hsource
  have hsettled := settled_of_analyse hanalyse
  exact
    { crossReference := crossReference_eq_self_iff.2 hsettled
      traits := fun _ _ => traits_of_settled (keyed_of_analyse hkeyed hanalyse) hsettled
      model := (linked_of_settled hsettled).services
      labelRecursive := labelRecursive_eq_self_iff.2 (labelled_of_analyse hanalyse)
      selection := applySelection_eq_self (selectedBy_of_analyse hanalyse)
      validate := validate_eq_ok_iff.2 (valid_of_analyse hanalyse) }

/-- A configuration that renames the model and skips its message. -/
def storeConfig : Config :=
  { format := "protobuf", source := "", nameOverride := some "store", skippedIds := [".v1.Order"] }

theorem valid_documented_shop : (shop.documented storeConfig).state.Valid := by
  refine ⟨?_, ?_, ?_⟩
  · intro id hid
    obtain rfl : id = ".v1.Orders" := List.mem_singleton.1 hid
    refine ⟨_, rfl, .inr ⟨rfl, rfl⟩, ?_⟩
    intro listed hlisted
    obtain rfl : listed = ".v1.Orders.Place" := List.mem_singleton.1 hlisted
    rfl
  · intro id hid
    exact nomatch hid
  · intro id hid
    exact nomatch hid

theorem stable_of_createModel_shop :
    shop.Keyed ∧ ∃ api, createModel storeConfig (.ok shop : Except Unit Api) = .ok api ∧
      api.name = "store" ∧ api.messages = [] ∧ api.Stable storeConfig := by
  have hkeyed : shop.Keyed := by decide
  obtain ⟨found, hfound⟩ : ∃ found,
      (shop.documented storeConfig).state.identifyTargets = .ok found := ⟨_, rfl⟩
  have hanalyse : shop.analyse storeConfig = .ok (found.applyOverrides storeConfig) :=
    analyse_eq_ok_iff.2 ⟨rfl, rfl, rfl, validate_eq_ok_iff.2 valid_documented_shop, found, hfound, rfl⟩
  have hcreate : createModel storeConfig (.ok shop : Except Unit Api) =
      .ok (found.applyOverrides storeConfig) := createModel_eq_ok_iff.2 ⟨shop, rfl, hanalyse⟩
  have hmessages : (found.applyOverrides storeConfig).messages = [] :=
    congrArg Api.messages (declared_of_analyse hanalyse)
  exact ⟨hkeyed, _, hcreate, rfl, hmessages, stable_of_createModel hkeyed hcreate⟩

end Api

end ApiModel

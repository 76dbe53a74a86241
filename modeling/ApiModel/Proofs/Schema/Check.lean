import ApiModel.Proofs.Schema.Name
import ApiModel.Proofs.Schema.Outline
import ApiModel.Schema.Check

/-!
# Resolved descriptors

Resolving the types of a file keeps its outline, and what a type name stands for was declared.

Principal results:

* `resolveType_refers`, `resolveMessage_mem` — types stand for declared names of the right kind;
* `resolveFile_eq_ok` — a resolved file has the outline of the file, and refers to declared names
  only.
-/

namespace ApiModel

/-! ## References -/

/-- A type is a scalar, or stands for something that is declared. -/
def FieldType.Refers (ds : List Declaration) : FieldType → Prop
  | .scalar kind => kind ≠ .message ∧ kind ≠ .enumeration
  | .message fullName | .group fullName => (fullName, .message) ∈ ds
  | .enumeration fullName => (fullName, .enumeration) ∈ ds

/-- The fields of all messages refer to declared types. -/
def FieldsRefer (ds : List Declaration) (all : List (String × MessageDescriptor FieldType)) : Prop :=
  ∀ m ∈ all, ∀ f ∈ m.2.fields, f.type.Refers ds

/-- The method refers to declared messages. -/
def MethodDescriptor.Refers (ds : List Declaration) (m : MethodDescriptor) : Prop :=
  (m.input, .message) ∈ ds ∧ (m.output, .message) ∈ ds

/-- The fields and the methods of a file refer to what is declared. -/
structure FileDescriptor.Refers (ds : List Declaration) (f : FileDescriptor FieldType) : Prop where
  fields : FieldsRefer ds f.allMessages
  methods : ∀ s ∈ f.services, ∀ m ∈ s.methods, m.Refers ds

namespace Schema

/-! ## What type names stand for -/

section Types

variable {v : Visible} {element : String} {ds : List Declaration}

theorem scalar?_ne {n : Int} {kind : FieldKind} (h : scalar? n = some kind) :
    kind ≠ .message ∧ kind ≠ .enumeration := by
  unfold scalar? at h
  split at h
  · cases h
  · rename_i hn
    split at h
    · have hlt : n.toNat < 19 := (List.getElem?_eq_some_iff.1 h).1
      have hmessage : ∀ k < 19, FieldKind.all[k]? = some .message → k = 11 := by decide
      have henum : ∀ k < 19, FieldKind.all[k]? = some .enumeration → k = 14 := by decide
      constructor
      · rintro rfl
        have := hmessage _ hlt h
        omega
      · rintro rfl
        have := henum _ hlt h
        omega
    · obtain rfl := Option.some.inj h
      exact ⟨nofun, nofun⟩

theorem resolveType_refers (hnames : Collected v.names ds) {t : TypeName} {type : FieldType}
    (h : resolveType v element t = .ok type) : type.Refers ds := by
  unfold resolveType at h
  split at h
  · split at h
    · rename_i kind hkind
      obtain rfl := Except.ok.inj h
      exact scalar?_ne hkind
    · cases h
  · split at h
    · rename_i fullName d hresolved
      obtain ⟨hget, htype⟩ := Visible.resolve?_eq_some hresolved
      have hdeclared := hnames.sound fullName d hget
      obtain rfl := Except.ok.inj h
      by_cases henum : d.kind = .enumeration
      · rw [if_pos henum]
        rwa [henum] at hdeclared
      · have hmessage : d.kind = .message := by
          simpa [DefinitionKind.isType, henum] using htype
        rw [if_neg henum]
        rw [hmessage] at hdeclared
        split
        · exact hdeclared
        · exact hdeclared
    · cases h

theorem resolveMessage_mem (hnames : Collected v.names ds) {name fullName : String}
    (h : resolveMessage v element name = .ok fullName) : (fullName, .message) ∈ ds := by
  unfold resolveMessage at h
  split at h
  · rename_i d hresolved
    obtain ⟨hget, hkind⟩ := Visible.resolve?_eq_some hresolved
    obtain rfl := Except.ok.inj h
    have hdeclared := hnames.sound _ d hget
    rwa [beq_iff_eq.1 hkind] at hdeclared
  · cases h

end Types

/-! ## Resolving -/

section Resolve

variable {c : Context} {scope : String} {ds : List Declaration}

theorem resolveField_eq_ok {f : FieldDescriptor TypeName} {g : FieldDescriptor FieldType}
    (hnames : Collected c.visible.names ds) (h : resolveField c scope f = .ok g) :
    g.outline = f.outline ∧ g.type.Refers ds := by
  unfold resolveField at h
  obtain ⟨type, htype, h⟩ := bind_eq_ok_iff.1 h
  obtain ⟨-, h⟩ := check_bind_eq_ok_iff.1 h
  obtain rfl := Except.ok.inj h
  exact ⟨rfl, resolveType_refers hnames htype⟩

theorem outline_resolveExtension {f : FieldDescriptor TypeName} {g : FieldDescriptor FieldType}
    (hnames : Collected c.visible.names ds) (h : resolveExtension c scope f = .ok g) :
    g.outline = f.outline := by
  unfold resolveExtension at h
  obtain ⟨extendee, -, h⟩ := bind_eq_ok_iff.1 h
  obtain ⟨-, h⟩ := check_bind_eq_ok_iff.1 h
  obtain ⟨g', hg', h⟩ := bind_eq_ok_iff.1 h
  obtain rfl := Except.ok.inj h
  exact (resolveField_eq_ok hnames hg').1

mutual

/-- A resolved message has the outline of the message, and refers to declared types. -/
theorem resolveMessageType_eq_ok (hnames : Collected c.visible.names ds) (scope : String) :
    ∀ (m : MessageDescriptor TypeName) {m' : MessageDescriptor FieldType},
      resolveMessageType c scope m = .ok m' →
        m'.outline = m.outline ∧ FieldsRefer ds (m'.withNested scope)
  | ⟨name, fields, extensions, nested, enums, _, _, oneofs, _⟩, m', h => by
    unfold resolveMessageType at h
    obtain ⟨fields', hfields, h⟩ := bind_eq_ok_iff.1 h
    obtain ⟨extensions', hextensions, h⟩ := bind_eq_ok_iff.1 h
    obtain ⟨nested', hnested, h⟩ := bind_eq_ok_iff.1 h
    obtain rfl := Except.ok.inj h
    obtain ⟨hn, hinner⟩ := resolveMessageTypes_eq_ok hnames (qualifiedName scope name) nested hnested
    have hf := map_eq_of_mapM FieldDescriptor.outline FieldDescriptor.outline hfields
      fun _ _ _ hg => (resolveField_eq_ok hnames hg).1
    have hx := map_eq_of_mapM FieldDescriptor.outline FieldDescriptor.outline hextensions
      fun _ _ _ hg => outline_resolveExtension hnames hg
    constructor
    · simp only [MessageDescriptor.outline, hf, hx, hn]
    · unfold MessageDescriptor.withNested FieldsRefer
      rw [List.forall_mem_cons]
      refine ⟨?_, hinner⟩
      intro g hg
      obtain ⟨f, -, hresolve⟩ := exists_of_mapM hfields hg
      exact (resolveField_eq_ok hnames hresolve).2

theorem resolveMessageTypes_eq_ok (hnames : Collected c.visible.names ds) (scope : String) :
    ∀ (ms : List (MessageDescriptor TypeName)) {ms' : List (MessageDescriptor FieldType)},
      resolveMessageTypes c scope ms = .ok ms' →
        MessageDescriptor.outlines ms' = MessageDescriptor.outlines ms ∧
          FieldsRefer ds (MessageDescriptor.allNested scope ms')
  | [], ms', h => by
    obtain rfl := Except.ok.inj h
    exact ⟨rfl, List.forall_mem_nil _⟩
  | m :: ms, ms', h => by
    unfold resolveMessageTypes at h
    obtain ⟨m', hm, h⟩ := bind_eq_ok_iff.1 h
    obtain ⟨rest', hrest, h⟩ := bind_eq_ok_iff.1 h
    obtain rfl := Except.ok.inj h
    obtain ⟨ho, href⟩ := resolveMessageType_eq_ok hnames scope m hm
    obtain ⟨hos, hrefs⟩ := resolveMessageTypes_eq_ok hnames scope ms hrest
    constructor
    · simp only [MessageDescriptor.outlines, ho, hos]
    · unfold MessageDescriptor.allNested FieldsRefer
      rw [List.forall_mem_append]
      exact ⟨href, hrefs⟩

end

theorem resolveMethod_eq_ok {m m' : MethodDescriptor} (hnames : Collected c.visible.names ds)
    (h : resolveMethod c scope m = .ok m') : m'.outline = m.outline ∧ m'.Refers ds := by
  unfold resolveMethod at h
  obtain ⟨input, hinput, h⟩ := bind_eq_ok_iff.1 h
  obtain ⟨output, houtput, h⟩ := bind_eq_ok_iff.1 h
  obtain rfl := Except.ok.inj h
  exact ⟨rfl, resolveMessage_mem hnames hinput, resolveMessage_mem hnames houtput⟩

theorem resolveService_eq_ok {s s' : ServiceDescriptor} (hnames : Collected c.visible.names ds)
    (h : resolveService c scope s = .ok s') :
    s'.outline = s.outline ∧ ∀ m ∈ s'.methods, m.Refers ds := by
  unfold resolveService at h
  obtain ⟨methods, hmethods, h⟩ := bind_eq_ok_iff.1 h
  obtain rfl := Except.ok.inj h
  have ho := map_eq_of_mapM MethodDescriptor.outline MethodDescriptor.outline hmethods
    fun _ _ _ hm => (resolveMethod_eq_ok hnames hm).1
  constructor
  · simp only [ServiceDescriptor.outline, ho]
  · intro m' hm'
    obtain ⟨m, -, hresolve⟩ := exists_of_mapM hmethods hm'
    exact (resolveMethod_eq_ok hnames hresolve).2

/-- **A resolved file has the outline of the file, and refers to declared names only.** -/
theorem resolveFile_eq_ok {f : FileDescriptor TypeName} {g : FileDescriptor FieldType}
    (hnames : Collected c.visible.names ds) (h : resolveFile c f = .ok g) :
    g.outline = f.outline ∧ g.Refers ds := by
  unfold resolveFile at h
  obtain ⟨messages, hmessages, h⟩ := bind_eq_ok_iff.1 h
  obtain ⟨extensions, hextensions, h⟩ := bind_eq_ok_iff.1 h
  obtain ⟨services, hservices, h⟩ := bind_eq_ok_iff.1 h
  obtain rfl := Except.ok.inj h
  obtain ⟨hm, hrefs⟩ := resolveMessageTypes_eq_ok hnames f.package f.messages hmessages
  have hx := map_eq_of_mapM FieldDescriptor.outline FieldDescriptor.outline hextensions
    fun _ _ _ hg => outline_resolveExtension hnames hg
  have hs := map_eq_of_mapM ServiceDescriptor.outline ServiceDescriptor.outline hservices
    fun _ _ _ hg => (resolveService_eq_ok hnames hg).1
  constructor
  · simp only [FileDescriptor.outline, hm, hx, hs]
  · refine ⟨hrefs, ?_⟩
    intro s' hs' m hm'
    obtain ⟨s, -, hresolve⟩ := exists_of_mapM hservices hs'
    exact (resolveService_eq_ok hnames hresolve).2 m hm'

end Resolve

/-! ## Descriptor sets -/

section Resolved

variable {files : List (FileDescriptor TypeName)}

/-- Every file sees the same collected names. -/
theorem visibleNames_eq_ok {visible : List Visible} (h : visibleNames files = .ok visible) :
    ∃ names, Collected names (files.flatMap (·.declarations)) ∧
      visible.length = files.length ∧ ∀ v ∈ visible, v.names = names := by
  unfold visibleNames at h
  obtain ⟨names, hnames, h⟩ := bind_eq_ok_iff.1 h
  obtain rfl := Except.ok.inj h
  refine ⟨names, collected_collectNames hnames, by simp, ?_⟩
  intro v hv
  obtain ⟨x, -, rfl⟩ := List.mem_map.1 hv
  rfl

theorem resolveFiles_eq_ok {visible : List Visible} {resolved : List (FileDescriptor FieldType)}
    {names : IdMap Definition} {ds : List Declaration} (hnames : Collected names ds)
    (hlength : visible.length = files.length) (hvisible : ∀ v ∈ visible, v.names = names)
    (h : resolveFiles files visible = .ok resolved) :
    resolved.map (·.outline) = files.map (·.outline) ∧ ∀ g ∈ resolved, g.Refers ds := by
  have hstep : ∀ x ∈ files.zip visible, ∀ (g : FileDescriptor FieldType) enumValues message?,
      (dialectOf x.1 >>= fun dialect =>
        resolveFile { visible := x.2, dialect, enumValues, message? } x.1) = .ok g →
        g.outline = x.1.outline ∧ g.Refers ds := by
    intro x hx g enumValues message? hg
    obtain ⟨dialect, -, hg⟩ := bind_eq_ok_iff.1 hg
    obtain rfl := hvisible x.2 (List.of_mem_zip hx).2
    exact resolveFile_eq_ok hnames hg
  unfold resolveFiles at h
  constructor
  · rw [map_eq_of_mapM (fun x : FileDescriptor TypeName × Visible => x.1.outline)
      FileDescriptor.outline h fun x hx g hg => (hstep x hx g _ _ hg).1]
    have hfst : (files.zip visible).map Prod.fst = files :=
      List.map_fst_zip (Nat.le_of_eq hlength.symm)
    have houtlines := congrArg (List.map FileDescriptor.outline) hfst
    rwa [List.map_map] at houtlines
  · intro g hg
    obtain ⟨x, hx, hresolve⟩ := exists_of_mapM h hg
    exact (hstep x hx g _ _ hresolve).2

/-- The resolved files have the outlines of the files, no name but a package's is declared twice, and
the files refer to declared names only. -/
theorem resolve_eq_ok {resolved : List (FileDescriptor FieldType × Visible)}
    (h : resolve files = .ok resolved) :
    (files.flatMap (·.declaredNames)).Nodup ∧
      resolved.map (·.1.outline) = files.map (·.outline) ∧
      ∀ x ∈ resolved, x.1.Refers (files.flatMap (·.declarations)) := by
  unfold resolve at h
  obtain ⟨-, h⟩ := check_bind_eq_ok_iff.1 h
  obtain ⟨-, h⟩ := check_bind_eq_ok_iff.1 h
  obtain ⟨visible, hvisible, h⟩ := bind_eq_ok_iff.1 h
  obtain ⟨gs, hgs, h⟩ := bind_eq_ok_iff.1 h
  obtain rfl := Except.ok.inj h
  obtain ⟨names, hnames, hlength, hsame⟩ := visibleNames_eq_ok hvisible
  obtain ⟨ho, hrefs⟩ := resolveFiles_eq_ok hnames hlength hsame hgs
  refine ⟨?_, ?_, ?_⟩
  · have hunique := hnames.unique
    rwa [List.filter_flatMap, List.map_flatMap] at hunique
  · have hgslength : gs.length = files.length := by
      simpa using congrArg List.length ho
    have hfst : (gs.zip visible).map Prod.fst = gs :=
      List.map_fst_zip (Nat.le_of_eq (hgslength.trans hlength.symm))
    have houtlines := congrArg (List.map FileDescriptor.outline) hfst
    rw [List.map_map] at houtlines
    exact houtlines.trans ho
  · intro x hx
    exact hrefs x.1 (List.of_mem_zip hx).1

end Resolved

end Schema

end ApiModel

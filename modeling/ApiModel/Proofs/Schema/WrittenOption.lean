import ApiModel.Proofs.Schema.Check
import ApiModel.Schema.WrittenOption

/-!
# Checked schemas

Interpreting the options of a file keeps its outline and what it refers to.

Principal result: `coherent_of_ofFiles` — a descriptor set that passes the checks makes a coherent
schema.
-/

namespace ApiModel

namespace OptionContext

variable {c : OptionContext} {scope : String} {ds : List Declaration}

/-! ## Members -/

theorem interpretField_eq_ok {f g : FieldDescriptor FieldType}
    (h : c.interpretField scope f = .ok g) : g.outline = f.outline ∧ g.type = f.type := by
  unfold interpretField at h
  obtain ⟨options, -, h⟩ := bind_eq_ok_iff.1 h
  obtain rfl := Except.ok.inj h
  exact ⟨rfl, rfl⟩

theorem outline_interpretOneof {o o' : OneofDescriptor} (h : c.interpretOneof scope o = .ok o') :
    o'.outline = o.outline := by
  unfold interpretOneof at h
  obtain ⟨options, -, h⟩ := bind_eq_ok_iff.1 h
  obtain rfl := Except.ok.inj h
  rfl

theorem outline_interpretEnumValue {v v' : EnumValueDescriptor}
    (h : c.interpretEnumValue scope v = .ok v') : v'.outline = v.outline := by
  unfold interpretEnumValue at h
  obtain ⟨options, -, h⟩ := bind_eq_ok_iff.1 h
  obtain rfl := Except.ok.inj h
  rfl

theorem outline_interpretEnum {e e' : EnumDescriptor} (h : c.interpretEnum scope e = .ok e') :
    e'.outline = e.outline := by
  unfold interpretEnum at h
  obtain ⟨values, hvalues, h⟩ := bind_eq_ok_iff.1 h
  obtain ⟨options, -, h⟩ := bind_eq_ok_iff.1 h
  obtain rfl := Except.ok.inj h
  have hv := map_eq_of_mapM EnumValueDescriptor.outline EnumValueDescriptor.outline hvalues
    fun _ _ _ hv => outline_interpretEnumValue hv
  simp only [EnumDescriptor.outline, hv]

/-! ## Messages -/

mutual

/-- An interpreted message has the outline of the message, and its fields keep their types. -/
theorem interpretMessage_eq_ok (scope : String) :
    ∀ (m : MessageDescriptor FieldType) {m' : MessageDescriptor FieldType},
      FieldsRefer ds (m.withNested scope) → c.interpretMessage scope m = .ok m' →
        m'.outline = m.outline ∧ FieldsRefer ds (m'.withNested scope)
  | ⟨name, fields, extensions, nested, enums, ranges, _, oneofs, _⟩, m', hrefs, h => by
    unfold interpretMessage at h
    obtain ⟨fields', hfields, h⟩ := bind_eq_ok_iff.1 h
    obtain ⟨extensions', hextensions, h⟩ := bind_eq_ok_iff.1 h
    obtain ⟨nested', hnested, h⟩ := bind_eq_ok_iff.1 h
    obtain ⟨enums', henums, h⟩ := bind_eq_ok_iff.1 h
    obtain ⟨ranges', -, h⟩ := bind_eq_ok_iff.1 h
    obtain ⟨oneofs', honeofs, h⟩ := bind_eq_ok_iff.1 h
    obtain ⟨options', -, h⟩ := bind_eq_ok_iff.1 h
    obtain rfl := Except.ok.inj h
    unfold MessageDescriptor.withNested FieldsRefer at hrefs
    rw [List.forall_mem_cons] at hrefs
    obtain ⟨hown, hinner⟩ := hrefs
    obtain ⟨hn, hinner'⟩ :=
      interpretMessages_eq_ok (qualifiedName scope name) nested hinner hnested
    have hf := map_eq_of_mapM FieldDescriptor.outline FieldDescriptor.outline hfields
      fun _ _ _ hg => (interpretField_eq_ok hg).1
    have hx := map_eq_of_mapM FieldDescriptor.outline FieldDescriptor.outline hextensions
      fun _ _ _ hg => (interpretField_eq_ok hg).1
    have he := map_eq_of_mapM EnumDescriptor.outline EnumDescriptor.outline henums
      fun _ _ _ he => outline_interpretEnum he
    have ho := map_eq_of_mapM OneofDescriptor.outline OneofDescriptor.outline honeofs
      fun _ _ _ ho => outline_interpretOneof ho
    constructor
    · simp only [MessageDescriptor.outline, hf, hx, hn, he, ho]
    · unfold MessageDescriptor.withNested FieldsRefer
      rw [List.forall_mem_cons]
      refine ⟨?_, hinner'⟩
      intro g hg
      obtain ⟨f, hf, hinterpret⟩ := exists_of_mapM hfields hg
      rw [(interpretField_eq_ok hinterpret).2]
      exact hown f hf

theorem interpretMessages_eq_ok (scope : String) :
    ∀ (ms : List (MessageDescriptor FieldType)) {ms' : List (MessageDescriptor FieldType)},
      FieldsRefer ds (MessageDescriptor.allNested scope ms) →
        c.interpretMessages scope ms = .ok ms' →
        MessageDescriptor.outlines ms' = MessageDescriptor.outlines ms ∧
          FieldsRefer ds (MessageDescriptor.allNested scope ms')
  | [], ms', _, h => by
    obtain rfl := Except.ok.inj h
    exact ⟨rfl, List.forall_mem_nil _⟩
  | m :: ms, ms', hrefs, h => by
    unfold interpretMessages at h
    obtain ⟨m', hm, h⟩ := bind_eq_ok_iff.1 h
    obtain ⟨rest', hrest, h⟩ := bind_eq_ok_iff.1 h
    obtain rfl := Except.ok.inj h
    unfold MessageDescriptor.allNested FieldsRefer at hrefs
    rw [List.forall_mem_append] at hrefs
    obtain ⟨ho, href'⟩ := interpretMessage_eq_ok scope m hrefs.1 hm
    obtain ⟨hos, hrefs'⟩ := interpretMessages_eq_ok scope ms hrefs.2 hrest
    constructor
    · simp only [MessageDescriptor.outlines, ho, hos]
    · unfold MessageDescriptor.allNested FieldsRefer
      rw [List.forall_mem_append]
      exact ⟨href', hrefs'⟩

end

/-! ## Services and files -/

theorem interpretMethod_eq_ok {m m' : MethodDescriptor} (h : c.interpretMethod scope m = .ok m') :
    m'.outline = m.outline ∧ ∀ ds, m.Refers ds → m'.Refers ds := by
  unfold interpretMethod at h
  obtain ⟨options, -, h⟩ := bind_eq_ok_iff.1 h
  obtain rfl := Except.ok.inj h
  exact ⟨rfl, fun _ hrefs => hrefs⟩

theorem interpretService_eq_ok {s s' : ServiceDescriptor} (hrefs : ∀ m ∈ s.methods, m.Refers ds)
    (h : c.interpretService scope s = .ok s') :
    s'.outline = s.outline ∧ ∀ m ∈ s'.methods, m.Refers ds := by
  unfold interpretService at h
  obtain ⟨methods, hmethods, h⟩ := bind_eq_ok_iff.1 h
  obtain ⟨options, -, h⟩ := bind_eq_ok_iff.1 h
  obtain rfl := Except.ok.inj h
  have ho := map_eq_of_mapM MethodDescriptor.outline MethodDescriptor.outline hmethods
    fun _ _ _ hm => (interpretMethod_eq_ok hm).1
  constructor
  · simp only [ServiceDescriptor.outline, ho]
  · intro m' hm'
    obtain ⟨m, hm, hinterpret⟩ := exists_of_mapM hmethods hm'
    exact (interpretMethod_eq_ok hinterpret).2 ds (hrefs m hm)

/-- An interpreted file has the outline of the file, and refers to declared names still. -/
theorem interpretFile_eq_ok {f g : FileDescriptor FieldType} (hrefs : f.Refers ds)
    (h : c.interpretFile f = .ok g) : g.outline = f.outline ∧ g.Refers ds := by
  unfold interpretFile at h
  obtain ⟨messages, hmessages, h⟩ := bind_eq_ok_iff.1 h
  obtain ⟨enums, henums, h⟩ := bind_eq_ok_iff.1 h
  obtain ⟨services, hservices, h⟩ := bind_eq_ok_iff.1 h
  obtain ⟨extensions, hextensions, h⟩ := bind_eq_ok_iff.1 h
  obtain ⟨options, -, h⟩ := bind_eq_ok_iff.1 h
  obtain rfl := Except.ok.inj h
  obtain ⟨hm, hfields⟩ := interpretMessages_eq_ok f.package f.messages hrefs.fields hmessages
  have he := map_eq_of_mapM EnumDescriptor.outline EnumDescriptor.outline henums
    fun _ _ _ he => outline_interpretEnum he
  have hs := map_eq_of_mapM ServiceDescriptor.outline ServiceDescriptor.outline hservices
    fun s hs _ hg => (interpretService_eq_ok (hrefs.methods s hs) hg).1
  have hx := map_eq_of_mapM FieldDescriptor.outline FieldDescriptor.outline hextensions
    fun _ _ _ hx => (interpretField_eq_ok hx).1
  constructor
  · simp only [FileDescriptor.outline, hm, he, hs, hx]
  · refine ⟨hfields, ?_⟩
    intro s' hs' m hm'
    obtain ⟨s, hs, hinterpret⟩ := exists_of_mapM hservices hs'
    exact (interpretService_eq_ok (hrefs.methods s hs) hinterpret).2 m hm'

end OptionContext

/-! ## Coherence -/

namespace FileDescriptor

variable {ρ : Type} {f : FileDescriptor ρ} {fullName : String}

/-- What is declared as a message is a message of the file. -/
theorem mem_messageNames_of_declared (h : (fullName, .message) ∈ f.declarations) :
    fullName ∈ f.messageNames := by
  unfold declarations at h
  simp only [List.mem_append] at h
  rcases h with (((h | h) | h) | h) | h
  · simp [packageDeclarations] at h
  · obtain ⟨p, hp, h⟩ := List.mem_flatMap.1 h
    have hname : fullName = p.1 := by simpa [MessageDescriptor.declarations] using h
    exact hname ▸ List.mem_map_of_mem hp
  · simp [EnumDescriptor.declarations] at h
  · simp at h
  · simp [ServiceDescriptor.declarations] at h

theorem mem_enumNames_of_declared (h : (fullName, .enumeration) ∈ f.declarations) :
    fullName ∈ f.enumNames := by
  unfold declarations at h
  simp only [List.mem_append] at h
  rcases h with (((h | h) | h) | h) | h
  · simp [packageDeclarations] at h
  · simp [MessageDescriptor.declarations] at h
  · obtain ⟨p, hp, h⟩ := List.mem_flatMap.1 h
    have hname : fullName = qualifiedName p.1 p.2.name := by
      simpa [EnumDescriptor.declarations] using h
    exact hname ▸ List.mem_map_of_mem hp
  · simp at h
  · simp [ServiceDescriptor.declarations] at h

end FileDescriptor

namespace Schema

variable {schema : Schema}

theorem mem_messageNames_of_declared {fullName : String}
    (h : (fullName, .message) ∈ schema.files.flatMap (·.declarations)) :
    fullName ∈ schema.messageNames := by
  obtain ⟨f, hf, hdeclared⟩ := List.mem_flatMap.1 h
  exact List.mem_flatMap.2 ⟨f, hf, FileDescriptor.mem_messageNames_of_declared hdeclared⟩

theorem knows_of_refers {type : FieldType}
    (h : type.Refers (schema.files.flatMap (·.declarations))) : schema.Knows type := by
  cases type with
  | scalar kind => exact h
  | message fullName => exact mem_messageNames_of_declared h
  | group fullName => exact mem_messageNames_of_declared h
  | enumeration fullName =>
    obtain ⟨f, hf, hdeclared⟩ := List.mem_flatMap.1 h
    exact List.mem_flatMap.2 ⟨f, hf, FileDescriptor.mem_enumNames_of_declared hdeclared⟩

/-- Files with the same outlines declare the same. -/
theorem flatMap_eq_of_outlines {α ρ σ : Type} {fs : List (FileDescriptor ρ)}
    {gs : List (FileDescriptor σ)} (h : fs.map (·.outline) = gs.map (·.outline))
    (view : FileDescriptor Unit → List α) :
    fs.flatMap (fun f => view f.outline) = gs.flatMap fun g => view g.outline := by
  have hflat := congrArg (List.flatMap view) h
  rwa [List.flatMap_map, List.flatMap_map] at hflat

/-- **A descriptor set that passes the checks makes a coherent schema.** -/
theorem coherent_of_ofFiles {files : List (FileDescriptor TypeName)}
    (h : ofFiles files = .ok schema) : schema.Coherent := by
  unfold ofFiles at h
  obtain ⟨resolved, hresolved, h⟩ := bind_eq_ok_iff.1 h
  obtain ⟨interpreted, hinterpreted, h⟩ := bind_eq_ok_iff.1 h
  obtain rfl := Except.ok.inj h
  obtain ⟨hunique, houtlines, hrefs⟩ := resolve_eq_ok hresolved
  have hstep : ∀ x ∈ resolved, ∀ g : FileDescriptor FieldType,
      OptionContext.interpretFile { schema := ofResolved (resolved.map (·.1)), visible := x.2 } x.1 =
        .ok g → g.outline = x.1.outline ∧ g.Refers (files.flatMap (·.declarations)) :=
    fun x hx g hg => OptionContext.interpretFile_eq_ok (hrefs x hx) hg
  have hsame : interpreted.map (·.outline) = files.map (·.outline) :=
    (map_eq_of_mapM (fun x : FileDescriptor FieldType × Visible => x.1.outline)
      FileDescriptor.outline hinterpreted fun x hx g hg => (hstep x hx g hg).1).trans houtlines
  have hdeclarations := flatMap_eq_of_outlines hsame FileDescriptor.declarations
  have hdeclared := flatMap_eq_of_outlines hsame FileDescriptor.declaredNames
  simp only [FileDescriptor.declarations_outline, FileDescriptor.declaredNames_outline]
    at hdeclarations hdeclared
  have hall : ∀ g ∈ interpreted, g.Refers (interpreted.flatMap (·.declarations)) := by
    intro g hg
    obtain ⟨x, hx, hinterpret⟩ := exists_of_mapM hinterpreted hg
    rw [hdeclarations]
    exact (hstep x hx g hinterpret).2
  refine ⟨?_, ?_, ?_⟩
  · rw [← hdeclared] at hunique
    exact hunique
  · intro g hg m hm f hf
    exact knows_of_refers ((hall g hg).fields m hm f hf)
  · intro g hg s hs m hm
    obtain ⟨hinput, houtput⟩ := (hall g hg).methods s hs m hm
    exact ⟨mem_messageNames_of_declared hinput, mem_messageNames_of_declared houtput⟩

end Schema

end ApiModel

import Mathlib.Data.List.Nodup
import SchemaForm.Proofs.Dictionary
import SchemaForm.Schema.Description

set_option autoImplicit false
set_option relaxedAutoImplicit false

/-!
Which descriptions are accepted, what is made of them, and which error is given. All that is wrong
with a description is listed in depth-first order: what is wrong with the fields of a level one by
one, and then the groups of the level that repeat an id. A description is accepted just if the list
is empty, and refused for the first item of it.
-/

namespace SchemaForm

/-! ### What a field needs -/

namespace FieldHead

/-- The types of inputs. A field that names no type is a text. -/
def inputTypes : List String :=
  ["", "text", "multiline", "password", "int", "numeric", "switch", "checkbox", "select",
    "datetimepicker", "sql"]

def groupTypes : List String := ["group", "inline-groups"]

def nestedTypes : List String := ["nested-tab", "nested-fieldset"]

def isKnown (h : FieldHead) : Bool :=
  inputTypes.contains h.kind || groupTypes.contains h.kind || nestedTypes.contains h.kind ||
    h.kind == "collection"

def isGroup (h : FieldHead) : Bool := groupTypes.contains h.kind

def isNested (h : FieldHead) : Bool := nestedTypes.contains h.kind

/-- Whether the type needs a child schema. -/
def needsSchema (h : FieldHead) : Bool := h.isNested || h.kind == "collection"

def typeName (h : FieldHead) : String := if h.kind = "" then "text" else h.kind

end FieldHead

namespace FieldDescription

def head : FieldDescription → FieldHead
  | .leaf head => head
  | .parent head _ _ => head

def child? : FieldDescription → Option SchemaDescription
  | .leaf _ => none
  | .parent _ child fields => some ⟨child, fields⟩

def groupIds (fields : List FieldDescription) : List String :=
  (fields.filter fun f => f.head.isGroup).filterMap fun f => f.head.id

end FieldDescription

/-! ### Well-formed descriptions -/

namespace SchemaDescription

/-- The description of a level: of the schema itself, or of the child schema of a field that needs
one. What else stands under a field is not looked at. -/
inductive Nests (d : SchemaDescription) : SchemaDescription → Prop
  | self : Nests d d
  | child {level child : SchemaDescription} {f : FieldDescription} (hlevel : Nests d level)
      (hf : f ∈ level.fields) (hneeds : f.head.needsSchema = true)
      (hchild : f.child? = some child) : Nests d child

/-- What is asked of a level. -/
structure WellFormedLevel (level : SchemaDescription) : Prop where
  known : ∀ f ∈ level.fields, f.head.isKnown = true
  parents : ∀ f ∈ level.fields, f.head.needsSchema = true → ∃ child, f.child? = some child
  named : ∀ f ∈ level.fields, f.head.isNested = false → ∃ id, f.head.id = some id
  groups : (FieldDescription.groupIds level.fields).Nodup

def WellFormed (d : SchemaDescription) : Prop :=
  ∀ level, d.Nests level → level.WellFormedLevel

end SchemaDescription

/-! ### What is wrong with a description -/

/-- What is wrong with a field itself. -/
inductive FieldDescription.Offends (f : FieldDescription) : SchemaError → Prop
  | unknownType (h : f.head.isKnown = false) :
      Offends f (.unknownType (f.head.id.getD "") f.head.kind)
  | missingSchema (h : f.head.needsSchema = true) (hchild : f.child? = none) :
      Offends f (.missingSchema (f.head.id.getD "") f.head.kind)
  | missingId (h : f.head.isNested = false) (hid : f.head.id = none) :
      Offends f (.missingId f.head.kind)

/-- What is wrong with a level: with a field, or with the groups. -/
inductive SchemaDescription.Offends (level : SchemaDescription) : SchemaError → Prop
  | field {f : FieldDescription} {e : SchemaError} (hf : f ∈ level.fields) (h : f.Offends e) :
      Offends level e
  | group {id : String} (h : 2 ≤ (FieldDescription.groupIds level.fields).count id) :
      Offends level (.duplicateGroup id)

namespace FieldDescription

/-- The ids that occur before. -/
def repeatedIds (seen : List String) : List String → List String
  | [] => []
  | id :: rest => (if seen.contains id then [id] else []) ++ repeatedIds (id :: seen) rest

/-- The errors of the groups among some fields that repeat an id. -/
def groupOffences (fields : List FieldDescription) : List SchemaError :=
  (repeatedIds [] (groupIds fields)).map .duplicateGroup

/-- The error of a field that lacks an id and needs one. -/
def idOffences (h : FieldHead) : List SchemaError :=
  if h.isNested || h.id.isSome then [] else [h.missingId]

mutual

/-- All that is wrong with a field, in depth-first order. -/
def offences : FieldDescription → List SchemaError
  | .leaf head =>
    (if !head.isKnown then [head.unknownType]
      else if head.needsSchema then [head.missingSchema] else []) ++ idOffences head
  | .parent head _ fields =>
    (if !head.isKnown then [head.unknownType]
      else if head.needsSchema then offencesAmong fields ++ groupOffences fields else []) ++
      idOffences head

def offencesAmong : List FieldDescription → List SchemaError
  | [] => []
  | f :: rest => offences f ++ offencesAmong rest

end

end FieldDescription

/-- All that is wrong with a description, in depth-first order. -/
def SchemaDescription.offences (d : SchemaDescription) : List SchemaError :=
  FieldDescription.offencesAmong d.fields ++ FieldDescription.groupOffences d.fields

/-! ### What a description says -/

namespace Field

/-- The bounds of a field that has any. -/
def bounds? : Field → Option (Option Binary64 × Option Binary64)
  | .input _ (.int min max) | .input _ (.numeric min max) => some (min, max)
  | _ => none

/-- The traits of a field as a collection. -/
def rowTraits? : Field → Option CollectionTraits
  | .collection _ _ _ rows => some rows
  | _ => none

def child? : Field → Option Schema
  | .nested _ _ fields schema | .collection _ fields schema _ => some ⟨fields, schema⟩
  | _ => none

end Field

/-- A field is what its description says about it, its child schema apart. -/
structure FieldHead.Gives (h : FieldHead) (f : Field) : Prop where
  id : f.id? = h.id
  type : f.typeName = h.typeName
  bounds : ∀ bounds, f.bounds? = some bounds → bounds = (h.min, h.max)
  rows : ∀ rows, f.rowTraits? = some rows → rows = ⟨h.uniqueColumns, h.fixedRows, h.columns⟩
  label : f.traits.label = h.label
  group : f.traits.group = h.group
  modes : f.traits.modes = h.modes
  serverTypes : f.traits.serverTypes = h.serverTypes
  minVersion : f.traits.minVersion = h.minVersion
  maxVersion : f.traits.maxVersion = h.maxVersion
  noEmpty : f.traits.noEmpty = true ↔ h.noEmpty = true ∨ h.emptyLabel ≠ none
  emptyLabel : f.traits.emptyLabel = h.emptyLabel
  excluded : f.traits.excluded = h.excluded
  skipChange : f.traits.skipChange = h.skipChange
  attrs : ∀ name ctx, f.traits.attr? name ctx = Dictionary.get? h.attrs name
  dependencies : f.traits.dependencies = []
  recompute : f.traits.recompute = none
  defer : f.traits.defer = none

structure SchemaHead.Gives (h : SchemaHead) (t : SchemaTraits) : Prop where
  idAttribute : t.idAttribute = h.idAttribute.getD "oid"
  defaults : t.defaults = h.defaults
  validator : t.validator = none
  initialiser : t.initialiser = none

mutual

/-- A field is what its description says, and so is its child schema at every depth. -/
def FieldDescription.Describes : FieldDescription → Field → Prop
  | .leaf head, f => head.Gives f ∧ f.child? = none
  | .parent head child fields, f =>
    head.Gives f ∧ ∀ s, f.child? = some s → child.Gives s.traits ∧ DescribesAll fields s.fields

def FieldDescription.DescribesAll : List FieldDescription → List Field → Prop
  | [], [] => True
  | d :: ds, f :: fs => FieldDescription.Describes d f ∧ DescribesAll ds fs
  | _, _ => False

end

def SchemaDescription.Describes (d : SchemaDescription) (s : Schema) : Prop :=
  d.head.Gives s.traits ∧ FieldDescription.DescribesAll d.fields s.fields

/-! ### Building -/

section Answers

variable {α β : Type} {errors errors' : List SchemaError} {P : α → Prop} {Q : β → Prop}
  {r : Except SchemaError α} {k : α → Except SchemaError β}

/-- A computation fails with the first of some errors; if there are none, its result is as asked. -/
def Answers (errors : List SchemaError) (P : α → Prop) (r : Except SchemaError α) : Prop :=
  match errors with
  | [] => ∃ a, r = .ok a ∧ P a
  | e :: _ => r = .error e

/-- What is wrong at first hides what is wrong later. -/
private theorem Answers.bind (h : Answers errors P r)
    (hk : ∀ a, errors = [] → P a → Answers errors' Q (k a)) :
    Answers (errors ++ errors') Q (r.bind k) := by
  cases errors with
  | nil =>
    obtain ⟨a, rfl, ha⟩ := h
    exact hk a rfl ha
  | cons e rest =>
    obtain rfl : r = .error e := h
    rfl

private theorem Answers.map {g : α → β} (h : Answers errors P r) (hg : ∀ a, P a → Q (g a)) :
    Answers errors Q (r.bind fun a => .ok (g a)) := by
  cases errors with
  | nil =>
    obtain ⟨a, rfl, ha⟩ := h
    exact ⟨g a, rfl, hg a ha⟩
  | cons e rest =>
    obtain rfl : r = .error e := h
    rfl

private theorem Answers.ok_iff (h : Answers errors P r) : (∃ a, r = .ok a) ↔ errors = [] := by
  cases errors with
  | nil =>
    obtain ⟨a, ha, -⟩ := h
    exact ⟨fun _ => rfl, fun _ => ⟨a, ha⟩⟩
  | cons e rest =>
    obtain rfl : r = .error e := h
    exact ⟨nofun, nofun⟩

private theorem Answers.of_ok {a : α} (h : Answers errors P r) (hr : r = .ok a) : P a := by
  obtain rfl := h.ok_iff.mp ⟨a, hr⟩
  obtain ⟨b, hb, hP⟩ := h
  obtain rfl := Except.ok.inj (hr.symm.trans hb)
  exact hP

private theorem Answers.error_iff {e : SchemaError} (h : Answers errors P r) :
    r = .error e ↔ errors.head? = some e := by
  cases errors with
  | nil =>
    obtain ⟨a, rfl, -⟩ := h
    exact ⟨nofun, nofun⟩
  | cons first rest =>
    obtain rfl : r = .error first := h
    simp

end Answers

private theorem Field.isGroup_eq (f : Field) :
    f.isGroup = FieldHead.groupTypes.contains f.typeName := by
  cases f with
  | input t kind => cases kind <;> rfl
  | group t inline => cases inline <;> rfl
  | nested t style fields schema => cases style <;> rfl
  | collection t fields schema rows => rfl

private theorem SchemaHead.gives_traits (h : SchemaHead) : h.Gives h.traits := ⟨rfl, rfl, rfl, rfl⟩

namespace FieldHead

private theorem attr?_traits (h : FieldHead) (name : String) (ctx : ExprContext) :
    h.traits.attr? name ctx = Dictionary.get? h.attrs name := by
  rw [FieldTraits.attr?, traits]
  induction h.attrs with
  | nil => rfl
  | cons entry rest ih =>
    obtain ⟨key, value⟩ := entry
    rw [List.map_cons, Dictionary.get?_cons, Dictionary.get?_cons]
    split
    · rfl
    · exact ih

private theorem gives_of_traits {h : FieldHead} {f : Field} (htraits : f.traits = h.traits)
    (htype : f.typeName = h.typeName)
    (hbounds : ∀ bounds, f.bounds? = some bounds → bounds = (h.min, h.max))
    (hrows : ∀ rows, f.rowTraits? = some rows → rows = h.rows) : h.Gives f where
  id := by rw [Field.id?, htraits]; rfl
  type := htype
  bounds := hbounds
  rows := hrows
  label := by rw [htraits]; rfl
  group := by rw [htraits]; rfl
  modes := by rw [htraits]; rfl
  serverTypes := by rw [htraits]; rfl
  minVersion := by rw [htraits]; rfl
  maxVersion := by rw [htraits]; rfl
  noEmpty := by rw [htraits]; simp [traits, ← Option.isSome_iff_ne_none]
  emptyLabel := by rw [htraits]; rfl
  excluded := by rw [htraits]; rfl
  skipChange := by rw [htraits]; rfl
  attrs := by rw [htraits]; exact attr?_traits h
  dependencies := by rw [htraits]; rfl
  recompute := by rw [htraits]; rfl
  defer := by rw [htraits]; rfl

/-- What is known of the type that is asked for, and of the field that is made. -/
def Asks (h : FieldHead) : Option KindRequest → Prop
  | none => h.isKnown = false
  | some (.input kind) =>
    h.isKnown = true ∧ h.needsSchema = false ∧ h.isNested = false ∧ h.Gives (.input h.traits kind)
  | some (.group inline) =>
    h.isKnown = true ∧ h.needsSchema = false ∧ h.isNested = false ∧ h.Gives (.group h.traits inline)
  | some (.nested style) =>
    h.isKnown = true ∧ h.needsSchema = true ∧ h.isNested = true ∧
      ∀ fields schema, h.Gives (.nested h.traits style fields schema)
  | some .collection =>
    h.isKnown = true ∧ h.needsSchema = true ∧ h.isNested = false ∧
      ∀ fields schema, h.Gives (.collection h.traits fields schema h.rows)

variable {h : FieldHead}

private theorem asks_input {kind : InputKind} (hkind : h.kind ∈ inputTypes)
    (hname : kind.name = h.typeName)
    (hbounds : ∀ bounds, (Field.input h.traits kind).bounds? = some bounds →
      bounds = (h.min, h.max)) : h.Asks (some (.input kind)) := by
  have hother : ∀ type ∈ inputTypes,
      nestedTypes.contains type = false ∧ (type == "collection") = false := by decide
  obtain ⟨hnested, hcollection⟩ := hother _ hkind
  have hknown : inputTypes.contains h.kind = true := List.contains_iff_mem.mpr hkind
  refine ⟨?_, ?_, hnested, gives_of_traits rfl hname hbounds nofun⟩
  · rw [isKnown, hknown]
    rfl
  · rw [needsSchema, isNested, hnested, hcollection]
    rfl

private theorem asks_request? (h : FieldHead) : h.Asks h.request? := by
  rw [request?]
  split
  case h_1 hkind | h_2 hkind | h_3 hkind | h_4 hkind | h_5 hkind | h_6 hkind | h_7 hkind |
      h_8 hkind | h_9 hkind | h_10 hkind | h_11 hkind =>
    refine asks_input (by rw [hkind]; decide) (by rw [typeName, hkind]; rfl) ?_
    simp [Field.bounds?, eq_comm]
  case h_12 hkind | h_13 hkind =>
    refine ⟨by rw [isKnown, hkind]; rfl, by rw [needsSchema, isNested, hkind]; rfl,
      by rw [isNested, hkind]; rfl, gives_of_traits rfl ?_ nofun nofun⟩
    rw [typeName, hkind]
    rfl
  case h_14 hkind | h_15 hkind =>
    refine ⟨by rw [isKnown, hkind]; rfl, by rw [needsSchema, isNested, hkind]; rfl,
      by rw [isNested, hkind]; rfl, fun _ _ => gives_of_traits rfl ?_ nofun nofun⟩
    rw [typeName, hkind]
    rfl
  case h_16 hkind =>
    refine ⟨by rw [isKnown, hkind]; rfl, by rw [needsSchema, isNested, hkind]; rfl,
      by rw [isNested, hkind]; rfl, fun _ _ => gives_of_traits rfl ?_ nofun ?_⟩
    · rw [typeName, hkind]
      rfl
    · simp [Field.rowTraits?, eq_comm]
  case h_17 =>
    simp_all [Asks, isKnown, inputTypes, groupTypes, nestedTypes]

private theorem isGroup_eq (h : FieldHead) : h.isGroup = groupTypes.contains h.typeName := by
  rw [isGroup, typeName]
  split
  case isTrue hkind => rw [hkind]; rfl
  case isFalse => rfl

private theorem isNested_of_isGroup (hgroup : h.isGroup = true) : h.isNested = false := by
  have hother : ∀ type ∈ groupTypes, nestedTypes.contains type = false := by decide
  exact hother _ (List.contains_iff_mem.mp hgroup)

private theorem Gives.isGroup {f : Field} (hgives : h.Gives f) : f.isGroup = h.isGroup := by
  rw [Field.isGroup_eq, isGroup_eq, hgives.type]

end FieldHead

namespace FieldDescription

private theorem firstRepeated?_eq (seen ids : List String) :
    firstRepeated? seen ids = (repeatedIds seen ids).head? := by
  induction ids generalizing seen with
  | nil => rfl
  | cons id rest ih =>
    rw [firstRepeated?, repeatedIds]
    split
    · rfl
    · exact ih (id :: seen)

private theorem idOffences_of_offences {d : FieldDescription} (h : d.offences = []) :
    idOffences d.head = [] := by
  cases d with
  | leaf head | parent head child fields =>
    rw [offences] at h
    exact (List.append_eq_nil_iff.mp h).2

private theorem id_of_idOffences {h : FieldHead} (hnone : idOffences h = [])
    (hnested : h.isNested = false) : h.id.isSome = true := by
  rw [Option.isSome_iff_ne_none]
  simpa [idOffences, hnested] using hnone

private theorem groupIds_eq {ds : List FieldDescription} {fs : List Field}
    (hfields : DescribesAll ds fs) (hnone : offencesAmong ds = []) :
    SchemaForm.groupIds fs = groupIds ds := by
  induction ds generalizing fs with
  | nil =>
    cases fs with
    | nil => rfl
    | cons f fs => exact hfields.elim
  | cons d ds ih =>
    cases fs with
    | nil => exact hfields.elim
    | cons f fs =>
      obtain ⟨hfield, hfields⟩ := hfields
      rw [offencesAmong, List.append_eq_nil_iff] at hnone
      have hrest := ih hfields hnone.2
      have hgives : d.head.Gives f := by
        cases d <;> exact hfield.1
      simp only [SchemaForm.groupIds, groupIds, List.filter_cons, hgives.isGroup] at hrest ⊢
      cases hgroup : d.head.isGroup with
      | false => exact hrest
      | true =>
        -- A group without id would be made under the empty one. It has one, as nothing is wrong.
        obtain ⟨id, hid⟩ := Option.isSome_iff_exists.mp
          (id_of_idOffences (idOffences_of_offences hnone.1) (FieldHead.isNested_of_isGroup hgroup))
        simp [hgives.id, hid, hrest]

private theorem requireId_answers {h : FieldHead} {f : Field} {P : Field → Prop}
    (hnested : h.isNested = false) (hf : P f) : Answers (idOffences h) P (h.requireId f) := by
  rw [idOffences, FieldHead.requireId, hnested]
  cases h.id.isSome with
  | false => rfl
  | true => exact ⟨f, rfl, hf⟩

private theorem checkGroups_answers {ds : List FieldDescription} {fs : List Field}
    (hfields : DescribesAll ds fs) (hnone : offencesAmong ds = []) :
    Answers (groupOffences ds) (DescribesAll ds) (checkGroups fs) := by
  rw [groupOffences, checkGroups, groupIds_eq hfields hnone, firstRepeated?_eq]
  cases repeatedIds [] (groupIds ds) with
  | nil => exact ⟨fs, rfl, hfields⟩
  | cons id rest => rfl

private theorem level_answers {ds : List FieldDescription}
    (h : Answers (offencesAmong ds) (DescribesAll ds) (buildLevel ds)) :
    Answers (offencesAmong ds ++ groupOffences ds) (DescribesAll ds)
      ((buildLevel ds).bind checkGroups) :=
  h.bind fun _ hnone hfields => checkGroups_answers hfields hnone

private theorem build_nested {head : FieldHead} {child : SchemaHead}
    {fields : List FieldDescription} {style : NestedStyle}
    (h : head.request? = some (.nested style)) :
    (parent head child fields).build = ((buildLevel fields).bind checkGroups).bind fun fs =>
      .ok (.nested head.traits style fs child.traits) := by
  rw [build, h]
  cases buildLevel fields with
  | error e => rfl
  | ok fs =>
    simp only [Except.bind]
    cases checkGroups fs <;> rfl

private theorem build_collection {head : FieldHead} {child : SchemaHead}
    {fields : List FieldDescription} (h : head.request? = some .collection) :
    (parent head child fields).build = ((buildLevel fields).bind checkGroups).bind fun fs =>
      head.requireId (.collection head.traits fs child.traits head.rows) := by
  rw [build, h]
  cases buildLevel fields with
  | error e => rfl
  | ok fs =>
    simp only [Except.bind]
    cases checkGroups fs <;> rfl

private theorem describes_child {ds : List FieldDescription} {fs : List Field} {child : SchemaHead}
    {f : Field} (hfields : DescribesAll ds fs) (hchild : f.child? = some ⟨fs, child.traits⟩) :
    ∀ s, f.child? = some s → child.Gives s.traits ∧ DescribesAll ds s.fields := by
  intro s hs
  obtain rfl := Option.some_inj.mp (hchild.symm.trans hs)
  exact ⟨child.gives_traits, hfields⟩

/-- An unknown type hides what else is wrong with a field. -/
private theorem unknown_answers (d : FieldDescription) (h : d.head.isKnown = false) :
    Answers d.offences d.Describes (.error d.head.unknownType) := by
  cases d with
  | leaf head | parent head child fields =>
    have hknown : head.isKnown = false := h
    rw [offences, hknown]
    rfl

/-- What stands under a field that needs no schema is passed over. -/
private theorem childless_answers {d : FieldDescription} {f : Field}
    (h : d.head.isKnown = true ∧ d.head.needsSchema = false ∧ d.head.isNested = false ∧
      d.head.Gives f) (hchild : f.child? = none) :
    Answers d.offences d.Describes (d.head.requireId f) := by
  obtain ⟨hknown, hneeds, hnested, hgives⟩ := h
  cases d with
  | leaf head =>
    simp only [FieldDescription.head] at hknown hneeds
    rw [offences, hknown, hneeds]
    exact requireId_answers hnested ⟨hgives, hchild⟩
  | parent head child fields =>
    simp only [FieldDescription.head] at hknown hneeds
    rw [offences, hknown, hneeds]
    refine requireId_answers hnested ⟨hgives, fun s hs => ?_⟩
    rw [hchild] at hs
    cases hs

private theorem lacking_answers {head : FieldHead} (hknown : head.isKnown = true)
    (hneeds : head.needsSchema = true) :
    Answers (leaf head).offences (leaf head).Describes (.error head.missingSchema) := by
  rw [offences, hknown, hneeds]
  rfl

mutual

private theorem build_answers : (d : FieldDescription) → Answers d.offences d.Describes d.build
  | .leaf head => by
    have hasks := head.asks_request?
    rw [build]
    cases hrequest : head.request? with
    | none =>
      rw [hrequest] at hasks
      exact unknown_answers (.leaf head) hasks
    | some request =>
      rw [hrequest] at hasks
      cases request with
      | input kind | group inline => exact childless_answers hasks rfl
      | nested style | collection => exact lacking_answers hasks.1 hasks.2.1
  | .parent head child fields => by
    have hasks := head.asks_request?
    have hlevel := level_answers (buildLevel_answers fields)
    cases hrequest : head.request? with
    | none =>
      rw [hrequest] at hasks
      rw [build, hrequest]
      exact unknown_answers (.parent head child fields) hasks
    | some request =>
      rw [hrequest] at hasks
      cases request with
      | input kind | group inline =>
        rw [build, hrequest]
        exact childless_answers hasks rfl
      | nested style =>
        obtain ⟨hknown, hneeds, hnested, hgives⟩ := hasks
        have hid : idOffences head = [] := by
          rw [idOffences, hnested]
          rfl
        rw [offences, build_nested hrequest, hknown, hneeds, hid, List.append_nil]
        exact hlevel.map fun fs hfs => ⟨hgives fs _, describes_child hfs rfl⟩
      | collection =>
        -- The id of a collection is asked for after its child schema was made.
        obtain ⟨hknown, hneeds, hnested, hgives⟩ := hasks
        rw [offences, build_collection hrequest, hknown, hneeds]
        exact hlevel.bind fun fs _ hfs =>
          requireId_answers hnested ⟨hgives fs _, describes_child hfs rfl⟩

private theorem buildLevel_answers : (ds : List FieldDescription) →
    Answers (offencesAmong ds) (DescribesAll ds) (buildLevel ds)
  | [] => ⟨[], rfl, trivial⟩
  | d :: ds => by
    have hbuild : buildLevel (d :: ds) =
        d.build.bind fun f => (buildLevel ds).bind fun fs => .ok (f :: fs) := by
      rw [buildLevel]
      cases d.build with
      | error e => rfl
      | ok f => cases buildLevel ds <;> rfl
    rw [hbuild, offencesAmong]
    exact (build_answers d).bind fun f _ hf => (buildLevel_answers ds).map fun fs hfs => ⟨hf, hfs⟩

end

end FieldDescription

private theorem SchemaDescription.build_answers (d : SchemaDescription) :
    Answers d.offences d.Describes d.build := by
  have hbuild : d.build = ((FieldDescription.buildLevel d.fields).bind checkGroups).bind fun fs =>
      .ok ⟨fs, d.head.traits⟩ := by
    rw [build]
    cases FieldDescription.buildLevel d.fields with
    | error e => rfl
    | ok fs => rfl
  rw [hbuild]
  exact (FieldDescription.level_answers (FieldDescription.buildLevel_answers d.fields)).map
    fun fs hfs => ⟨d.head.gives_traits, hfs⟩

/-! ### The errors there are -/

private theorem FieldHead.isKnown_of_needsSchema {h : FieldHead} (hneeds : h.needsSchema = true) :
    h.isKnown = true := by
  simp only [needsSchema, isNested, Bool.or_eq_true] at hneeds
  simp only [isKnown, Bool.or_eq_true]
  exact hneeds.elim (fun hnested => .inl (.inr hnested)) .inr

namespace FieldDescription

private theorem mem_repeatedIds_iff {seen ids : List String} {id : String} :
    id ∈ repeatedIds seen ids ↔ (id ∈ seen ∧ id ∈ ids) ∨ 2 ≤ ids.count id := by
  induction ids generalizing seen with
  | nil => simp [repeatedIds]
  | cons first rest ih =>
    rw [repeatedIds, List.mem_append, ih, List.mem_cons, List.mem_cons, List.count_cons]
    by_cases hfirst : id = first
    · subst hfirst
      have htwice : 2 ≤ rest.count id + 1 ↔ id ∈ rest := by
        rw [← List.one_le_count_iff, Nat.succ_le_succ_iff]
      have hmore : 2 ≤ rest.count id → id ∈ rest := fun h =>
        List.one_le_count_iff.mp (Nat.le_of_succ_le h)
      rw [beq_self_eq_true, if_pos rfl, htwice]
      by_cases hseen : id ∈ seen
      · simp [hseen]
      · simpa [hseen] using hmore
    · have hother : (first == id) = false := beq_false_of_ne (Ne.symm hfirst)
      by_cases hseen : first ∈ seen <;> simp [hseen, hfirst, hother]

private theorem mem_groupOffences_iff {fields : List FieldDescription} {e : SchemaError} :
    e ∈ groupOffences fields ↔ ∃ id, 2 ≤ (groupIds fields).count id ∧ e = .duplicateGroup id := by
  simp [groupOffences, mem_repeatedIds_iff, eq_comm]

private theorem mem_idOffences_iff {h : FieldHead} {e : SchemaError} :
    e ∈ idOffences h ↔ h.isNested = false ∧ h.id = none ∧ e = .missingId h.kind := by
  rw [idOffences]
  cases hnested : h.isNested <;> cases hid : h.id <;> simp [FieldHead.missingId]

private theorem mem_offencesAmong_iff {fields : List FieldDescription} {e : SchemaError} :
    e ∈ offencesAmong fields ↔ ∃ f ∈ fields, e ∈ f.offences := by
  induction fields with
  | nil => simp [offencesAmong]
  | cons f rest ih => simp [offencesAmong, ih]

private theorem offends_iff {f : FieldDescription} {e : SchemaError} :
    f.Offends e ↔ (f.head.isKnown = false ∧ e = f.head.unknownType) ∨
      (f.head.needsSchema = true ∧ f.child? = none ∧ e = f.head.missingSchema) ∨
        e ∈ idOffences f.head := by
  rw [mem_idOffences_iff]
  constructor
  · rintro (h | ⟨h, hchild⟩ | ⟨h, hid⟩)
    · exact .inl ⟨h, rfl⟩
    · exact .inr (.inl ⟨h, hchild, rfl⟩)
    · exact .inr (.inr ⟨h, hid, rfl⟩)
  · rintro (⟨h, rfl⟩ | ⟨h, hchild, rfl⟩ | ⟨h, hid, rfl⟩)
    · exact .unknownType h
    · exact .missingSchema h hchild
    · exact .missingId h hid

private theorem mem_offences_iff {f : FieldDescription} {e : SchemaError} :
    e ∈ f.offences ↔ f.Offends e ∨
      f.head.needsSchema = true ∧ ∃ child, f.child? = some child ∧ e ∈ child.offences := by
  rw [offends_iff]
  have hknown : f.head.isKnown = false → f.head.needsSchema = false := fun h =>
    eq_false_of_ne_true fun hneeds => by
      rw [FieldHead.isKnown_of_needsSchema hneeds] at h
      cases h
  cases f with
  | leaf head =>
    cases hk : head.isKnown <;> cases hn : head.needsSchema <;>
      simp_all [offences, FieldDescription.head, child?]
  | parent head child fields =>
    cases hk : head.isKnown <;> cases hn : head.needsSchema <;>
      simp_all [offences, FieldDescription.head, child?, SchemaDescription.offences, or_assoc,
        or_comm, or_left_comm]

private theorem sizeOf_child_lt {f : FieldDescription} {child : SchemaDescription}
    (h : f.child? = some child) : sizeOf child.fields < sizeOf f := by
  cases f with
  | leaf head => cases h
  | parent head childHead fields =>
    obtain rfl := Option.some_inj.mp h
    change sizeOf fields < sizeOf (parent head childHead fields)
    rw [parent.sizeOf_spec]
    omega

end FieldDescription

namespace SchemaDescription

variable {d level child : SchemaDescription} {e : SchemaError}

private theorem mem_offences_iff : e ∈ d.offences ↔ d.Offends e ∨
    ∃ f ∈ d.fields, f.head.needsSchema = true ∧
      ∃ child, f.child? = some child ∧ e ∈ child.offences := by
  rw [offences, List.mem_append, FieldDescription.mem_offencesAmong_iff,
    FieldDescription.mem_groupOffences_iff]
  simp only [FieldDescription.mem_offences_iff]
  constructor
  · rintro (⟨f, hf, h | h⟩ | ⟨id, hid, rfl⟩)
    · exact .inl (.field hf h)
    · exact .inr ⟨f, hf, h⟩
    · exact .inl (.group hid)
  · rintro (h | ⟨f, hf, h⟩)
    · cases h with
      | field hf h => exact .inl ⟨_, hf, .inl h⟩
      | group hid => exact .inr ⟨_, hid, rfl⟩
    · exact .inl ⟨f, hf, .inr h⟩

private theorem Nests.trans (hchild : d.Nests child) (h : child.Nests level) : d.Nests level := by
  induction h with
  | self => exact hchild
  | child _ hf hneeds hchild? ih => exact .child ih hf hneeds hchild?

private theorem Nests.mem_offences (h : d.Nests level) (he : e ∈ level.offences) :
    e ∈ d.offences := by
  induction h with
  | self => exact he
  | child _ hf hneeds hchild ih =>
    exact ih (mem_offences_iff.mpr (.inr ⟨_, hf, hneeds, _, hchild, he⟩))

private theorem exists_offends (d : SchemaDescription) (he : e ∈ d.offences) :
    ∃ level, d.Nests level ∧ level.Offends e := by
  rcases mem_offences_iff.mp he with h | ⟨f, hf, hneeds, child, hchild, he⟩
  · exact ⟨d, .self, h⟩
  · have hsize : sizeOf child.fields < sizeOf d.fields :=
      Nat.lt_trans (FieldDescription.sizeOf_child_lt hchild) (List.sizeOf_lt_of_mem hf)
    obtain ⟨level, hlevel, hoffends⟩ := exists_offends child he
    exact ⟨level, (Nests.self.child hf hneeds hchild).trans hlevel, hoffends⟩
termination_by sizeOf d.fields

private theorem wellFormedLevel_iff : level.WellFormedLevel ↔ ∀ e, ¬ level.Offends e := by
  constructor
  · rintro h e (⟨hf, hunknown | ⟨hneeds, hchild⟩ | ⟨hnested, hid⟩⟩ | @⟨id, hcount⟩)
    · rw [h.known _ hf] at hunknown
      cases hunknown
    · obtain ⟨child, hsome⟩ := h.parents _ hf hneeds
      rw [hchild] at hsome
      cases hsome
    · obtain ⟨id, hsome⟩ := h.named _ hf hnested
      rw [hid] at hsome
      cases hsome
    · exact absurd (List.nodup_iff_count_le_one.mp h.groups id) (by omega)
  · intro h
    refine ⟨fun f hf => ?_, fun f hf hneeds => ?_, fun f hf hnested => ?_, ?_⟩
    · exact eq_true_of_ne_false fun hunknown => h _ (.field hf (.unknownType hunknown))
    · exact Option.ne_none_iff_exists'.mp fun hchild =>
        h _ (.field hf (.missingSchema hneeds hchild))
    · exact Option.ne_none_iff_exists'.mp fun hid => h _ (.field hf (.missingId hnested hid))
    · exact List.nodup_iff_count_le_one.mpr fun id =>
        Nat.le_of_lt_succ (Nat.lt_of_not_le fun hcount => h _ (.group hcount))

private theorem mem_offences_iff_exists :
    e ∈ d.offences ↔ ∃ level, d.Nests level ∧ level.Offends e :=
  ⟨exists_offends d, fun ⟨_, hlevel, h⟩ => hlevel.mem_offences (mem_offences_iff.mpr (.inl h))⟩

private theorem wellFormed_iff : d.WellFormed ↔ d.offences = [] := by
  simp only [WellFormed, wellFormedLevel_iff, List.eq_nil_iff_forall_not_mem,
    mem_offences_iff_exists, not_exists, not_and]
  exact ⟨fun h e level hlevel => h level hlevel e, fun h level hlevel e => h e level hlevel⟩

/-- A description is accepted just if all its levels are well-formed, and the schema is then what
it says. Else it is refused for the first thing that is wrong, in depth-first order. -/
theorem build_exact (d : SchemaDescription) :
    ((∃ s, d.build = .ok s) ↔ d.WellFormed) ∧
      (∀ s, d.build = .ok s → d.Describes s) ∧
      (∀ e, d.build = .error e ↔ d.offences.head? = some e) ∧
      ∀ e, e ∈ d.offences ↔ ∃ level, d.Nests level ∧ level.Offends e :=
  ⟨d.build_answers.ok_iff.trans wellFormed_iff.symm, fun _ hs => d.build_answers.of_ok hs,
    fun _ => d.build_answers.error_iff, fun _ => mem_offences_iff_exists⟩

private def headOf (kind : String) (id : Option String) : FieldHead :=
  ⟨id, kind, none, none, [], [], none, none, false, none, false, false, none, none, [], none, none,
    []⟩

private def orderOf (fields : List FieldDescription) : SchemaDescription :=
  ⟨⟨none, []⟩, [.leaf (headOf "" (some "name")),
    .parent (headOf "collection" (some "lines")) ⟨none, []⟩
      [.parent (headOf "nested-fieldset" none) ⟨none, []⟩ fields]]⟩

private def sound : SchemaDescription :=
  orderOf [.leaf (headOf "group" (some "main")), .leaf (headOf "int" (some "count"))]

private def unsound : SchemaDescription :=
  orderOf [.leaf (headOf "group" (some "main")), .leaf (headOf "inline-groups" (some "main")),
    .leaf (headOf "int" none)]

theorem build_exact_order :
    (∃ s, sound.build = .ok s ∧ sound.Describes s) ∧ sound.WellFormed ∧
      unsound.build = .error (.missingId "int") ∧ ¬ unsound.WellFormed := by
  obtain ⟨haccepted, hsays, -, -⟩ := build_exact sound
  obtain ⟨hrefused, -, hfirst, -⟩ := build_exact unsound
  have hbuild : ∃ s, sound.build = .ok s := ⟨_, rfl⟩
  have herror : unsound.build = .error (.missingId "int") := (hfirst _).mpr (by decide)
  refine ⟨?_, haccepted.mp hbuild, herror, fun hformed => ?_⟩
  · obtain ⟨s, hs⟩ := hbuild
    exact ⟨s, hs, hsays s hs⟩
  · obtain ⟨s, hs⟩ := hrefused.mpr hformed
    cases herror.symm.trans hs

end SchemaDescription

end SchemaForm

import SchemaForm.Proofs.Form.Operation
import SchemaForm.Proofs.RowId.Bare

set_option autoImplicit false
set_option relaxedAutoImplicit false

/-!
Identities in the payload of changes. A change set takes the identities off the rows that it
reports, but not off the rows below these, and it takes the values of fields over as they are. So
the payload is free of identities if there are none in what is taken over: then every row in it is
one that a change set reports itself, or comes from the initial document, which is stripped at every
depth.
-/

namespace SchemaForm

namespace Diff

open RowId

variable {options : DiffOptions}

mutual

/-- Whether no row has an identity below what a change set takes over from a field: the values of
inputs, the rows that are reported as a whole, and what changed rows are laid over. -/
def fieldTakesBare (options : DiffOptions) (original current : Json) : Field → Bool
  | .nested _ _ fields _ => levelTakesBare options original current fields
  | .collection t fields child _ =>
    match t.id with
    | none => true
    | some id =>
      if options.mode = .edit then
        let diff := RowDiff.of (original.rows id) (current.rows id)
        diff.added.all isBare && diff.removed.all isBare && diff.updated.all fun row =>
          ((RowDiff.counterpart? (original.rows id) row).all fun old =>
            levelTakesBare options old row fields) &&
          isBare ((row.get? child.idAttribute).getD row)
      else
        match (current.get? id).getD (.array []) with
        | .array rows => rows.all isBare
        | v => isBare v
  | .input t _ | .group t _ =>
    match t.id with
    | none => true
    | some id => isBare ((current.get? id).getD .null)

def levelTakesBare (options : DiffOptions) (original current : Json) : List Field → Bool
  | [] => true
  | f :: rest =>
    (!f.traits.isTracked options.mode options.includeSkipChange ||
      fieldTakesBare options original current f) && levelTakesBare options original current rest

end

private theorem isBare_report (hplain : options.stringify = false) {atTop : Bool} {id : String}
    {v : Json} (hbare : isBare v = true) :
    ∀ pair ∈ report options atTop id v, isBare pair.2 = true := by
  intro pair hmember
  rw [report, List.mem_singleton] at hmember
  subst hmember
  cases v with
  | array items => simpa only [reported, hplain, Bool.false_eq_true, if_false] using hbare
  | object members => simpa only [reported, hplain, Bool.false_eq_true, if_false] using hbare
  | null => cases atTop <;> rfl
  | _ => exact hbare

private theorem isBare_partition (hhidden : options.keepRowIds = false) (name : String)
    {rows : List Json} (hbare : ∀ row ∈ rows, isBare row = true) :
    ∀ pair ∈ partition options name rows, isBare pair.2 = true := by
  intro pair hmember
  unfold partition at hmember
  split at hmember
  · cases hmember
  · rw [List.mem_singleton] at hmember
    subst hmember
    rw [hhidden]
    exact isBare_drop_array hbare

private theorem isBare_partitions (hplain : options.stringify = false)
    (hhidden : options.keepRowIds = false)
    {atTop : Bool} {id : String} {diff : RowDiff} {changed : List Json}
    (hadded : ∀ row ∈ diff.added, isBare row = true)
    (hremoved : ∀ row ∈ diff.removed, isBare row = true)
    (hlaid : ∀ row ∈ changed, isBare row = true) :
    ∀ pair ∈ partitions options atTop id diff changed, isBare pair.2 = true := by
  have hparts : ∀ pair ∈ partition options "added" diff.added ++
      partition options "deleted" diff.removed ++ partition options "changed" changed,
      isBare pair.2 = true := by
    intro pair hmember
    rcases List.mem_append.mp hmember with hmember | hmember
    · rcases List.mem_append.mp hmember with hmember | hmember
      · exact isBare_partition hhidden "added" hadded pair hmember
      · exact isBare_partition hhidden "deleted" hremoved pair hmember
    · exact isBare_partition hhidden "changed" hlaid pair hmember
  intro pair hmember
  unfold partitions at hmember
  simp only at hmember
  split at hmember
  · cases hmember
  · exact isBare_report hplain (isBare_ofPairs hparts) pair hmember

private theorem isBare_changedRow {child : SchemaTraits} {row : Json}
    {changes : List (String × Json)} (hbase : isBare ((row.get? child.idAttribute).getD row) = true)
    (hbare : ∀ pair ∈ changes, isBare pair.2 = true) :
    isBare (changedRow child row changes) = true := by
  unfold changedRow
  refine isBare_overlay ?_ hbare
  cases hheld : row.get? child.idAttribute with
  | some id =>
    rw [hheld] at hbase
    simpa [isBare, areBareMembers] using hbase
  | none =>
    rw [hheld] at hbase
    cases row with
    | object members => exact hbase
    | _ => rfl

private theorem isBare_valueReport (hplain : options.stringify = false) (schema : SchemaTraits)
    {atTop : Bool} {id : String} {original current : Json}
    (hbare : isBare ((current.get? id).getD .null) = true) :
    ∀ pair ∈ fieldReports options schema atTop original current
      (.input { FieldTraits.plain with id := some id } .text), isBare pair.2 = true := by
  intro pair hmember
  simp only [fieldReports] at hmember
  split at hmember
  · cases hmember
  · split at hmember
    · cases hmember
    · exact isBare_report hplain hbare pair hmember

mutual

private theorem isBare_fieldReports (hplain : options.stringify = false)
    (hhidden : options.keepRowIds = false) (schema : SchemaTraits) (atTop : Bool)
    {original current : Json} : (f : Field) →
    fieldTakesBare options original current f = true →
    ∀ pair ∈ fieldReports options schema atTop original current f, isBare pair.2 = true
  | .nested _ _ fields child, hbare => by
    rw [fieldTakesBare] at hbare
    rw [fieldReports]
    exact isBare_levelReports hplain hhidden child atTop fields hbare
  | .input t _, hbare => by
    rw [fieldTakesBare] at hbare
    rw [fieldReports]
    cases hnamed : t.id with
    | none => simp
    | some id =>
      rw [hnamed] at hbare
      simpa only [fieldReports] using isBare_valueReport hplain schema hbare
  | .group t _, hbare => by
    rw [fieldTakesBare] at hbare
    rw [fieldReports]
    cases hnamed : t.id with
    | none => simp
    | some id =>
      rw [hnamed] at hbare
      simpa only [fieldReports] using isBare_valueReport hplain schema hbare
  | .collection t fields child rows, hbare => by
    rw [fieldTakesBare] at hbare
    rw [fieldReports]
    cases hnamed : t.id with
    | none => simp
    | some id =>
      simp only [hnamed] at hbare ⊢
      intro pair hmember
      split at hmember
      · rename_i hedit
        rw [if_pos hedit] at hbare
        simp only [Bool.and_eq_true, List.all_eq_true, Option.all_eq_true] at hbare
        obtain ⟨⟨hadded, hremoved⟩, hupdated⟩ := hbare
        split at hmember
        · cases hmember
        · refine isBare_partitions hplain hhidden hadded hremoved ?_ pair hmember
          intro reported hlaid
          obtain ⟨row, hchanged, hreport⟩ := List.mem_filterMap.mp hlaid
          obtain ⟨old, hversion, hreport⟩ := Option.bind_eq_some_iff.mp hreport
          obtain ⟨hbelow, hbase⟩ := hupdated row hchanged
          have hchanges :=
            isBare_levelReports hplain hhidden child false fields (hbelow old hversion)
          split at hreport
          · cases hreport
          · cases hreport
            exact isBare_changedRow hbase hchanges
      · rename_i hwhole
        rw [if_neg hwhole] at hbare
        split at hmember
        · refine isBare_report hplain ?_ pair hmember
          rw [hhidden]
          cases hheld : (current.get? id).getD (.array []) with
          | array items =>
            rw [hheld] at hbare
            exact isBare_drop_array (List.all_eq_true.mp hbare)
          | _ =>
            rw [hheld] at hbare
            exact hbare
        · cases hmember

private theorem isBare_levelReports (hplain : options.stringify = false)
    (hhidden : options.keepRowIds = false) (schema : SchemaTraits) (atTop : Bool)
    {original current : Json} : (fields : List Field) →
    levelTakesBare options original current fields = true →
    ∀ pair ∈ levelReports options schema atTop original current fields, isBare pair.2 = true
  | [], _ => by
    intro pair hmember
    cases hmember
  | f :: rest, hbare => by
    rw [levelTakesBare, Bool.and_eq_true, Bool.or_eq_true, Bool.not_eq_true'] at hbare
    obtain ⟨hfirst, hlater⟩ := hbare
    intro pair hmember
    rw [levelReports, List.mem_append] at hmember
    rcases hmember with hmember | hmember
    · split at hmember
      · rename_i htracked
        rw [htracked] at hfirst
        exact isBare_fieldReports hplain hhidden schema atTop f (hfirst.resolve_left (by simp)) pair
          hmember
      · cases hmember
    · exact isBare_levelReports hplain hhidden schema atTop rest hlater pair hmember

end

end Diff

namespace Form

open RowId

/-- Where identities are not to be kept, the payload of changes has none on any row at any depth, if
there are none below what the change set takes over as it stands: the values of inputs, the rows
that are added, removed, or reported as a whole, and the id attributes of the document and of
changed rows. -/
theorem changes_without_identities (f : Form) (includeSkipChange : Bool)
    (hhidden : f.view.keepRowIds = false)
    (hbare : Diff.levelTakesBare ⟨f.view.mode, false, false, includeSkipChange⟩ f.initialData
      f.session.doc f.schema.fields = true)
    (hbareId : f.view.mode = .edit →
      isBare ((f.initialData.get? f.schema.traits.idAttribute).getD .null) = true) :
    ∀ l row, (f.changes includeSkipChange).RowAt l row → row.get? RowId.key = none := by
  have hdiff : isBare (.object (f.diff includeSkipChange)) = true := by
    have hreports := Diff.isBare_levelReports rfl rfl f.schema.traits true f.schema.fields hbare
    rw [Form.diff, hhidden]
    exact isBare_ofPairs hreports
  have hpayload : isBare (f.changes includeSkipChange) = true := by
    rw [changes, Form.payload]
    split
    · rename_i hedit
      have hidBare := hbareId hedit
      simp only
      split
      · rename_i id hheld
        rw [hheld] at hidBare
        split
        · exact hdiff
        · have hlaid := isBare_overlay (e := [(f.schema.traits.idAttribute, id)]) hdiff
            (by simpa using hidBare)
          exact hlaid
      · exact hdiff
    · -- The change set lies on a copy of the initial document that is stripped at every depth.
      have hshown : f.view.keepRowIds ≠ true := by simp [hhidden]
      simp only [if_neg hshown]
      refine isBare_merge ?_
      intro layer hmember
      rcases List.mem_pair.mp hmember with rfl | rfl
      · exact isBare_strip _
      · exact hdiff
  intro l row hthere
  exact get?_key_of_isBare hpayload hthere

private def orderEditor : Form :=
  start ⟨[.collection { FieldTraits.plain with id := some "orders" }
      [.input { FieldTraits.plain with id := some "note" } .text,
        .collection { FieldTraits.plain with id := some "parts" }
          [.input { FieldTraits.plain with id := some "size" } .text] .plain ⟨[], none, none⟩]
      .plain ⟨[], none, none⟩], .plain⟩ (.ofMode .edit) .empty .empty ⟨0⟩

private def partChanged : Form :=
  orderEditor.run [
    .initialise false (some (.ok (.ofPairs [("oid", .ofNat 1), ("orders", .array [
      .ofPairs [("oid", .ofNat 7), ("parts", .array [.ofPairs [("size", .text "1")]])]])]))),
    .dispatch (.setValue (.parse "orders.0.parts.0.size") (.text "2"))]

/-- The rows of the document have identities; the changed part of the changed order is reported
without one. -/
theorem changes_without_identities_part :
    partChanged.view.keepRowIds = false ∧
      Diff.levelTakesBare ⟨partChanged.view.mode, false, false, false⟩ partChanged.initialData
        partChanged.session.doc partChanged.schema.fields = true ∧
      ((partChanged.session.doc.valueAt? (.parse "orders.0.parts.0")).bind of?) = some "nn2" ∧
      partChanged.changes false = .ofPairs [("oid", .ofNat 1), ("orders", .ofPairs [("changed",
        .array [.ofPairs [("oid", .ofNat 7), ("parts", .ofPairs [("changed",
          .array [.ofPairs [("size", .text "2")]])])]])])] ∧
      ∀ l row, (partChanged.changes false).RowAt l row → row.get? RowId.key = none := by
  have hhidden : partChanged.view.keepRowIds = false := by decide +kernel
  have hbare : Diff.levelTakesBare ⟨partChanged.view.mode, false, false, false⟩
      partChanged.initialData partChanged.session.doc partChanged.schema.fields = true := by
    decide +kernel
  have hbareId : isBare ((partChanged.initialData.get? partChanged.schema.traits.idAttribute).getD
      .null) = true := by
    decide +kernel
  exact ⟨hhidden, hbare, by decide +kernel, by decide +kernel,
    changes_without_identities partChanged false hhidden hbare fun _ => hbareId⟩

/-- An order that has a part is added to an empty list of orders. -/
private def orderAdded : Form :=
  orderEditor.run [
    .initialise false (some (.ok (.ofPairs [("oid", .ofNat 1), ("orders", .array [])]))),
    .dispatch (.addRow (.parse "orders") (.ofPairs [("note", .text "a"),
      ("parts", .array [.ofPairs [("size", .text "1")]])]) false)]

/-- The added order is reported without its identity, but the part below it with one. -/
theorem changes_with_identity_below_added_row :
    orderAdded.ui.ready = true ∧ orderAdded.view.keepRowIds = false ∧
      orderAdded.changes false = .ofPairs [("oid", .ofNat 1), ("orders", .ofPairs [("added",
        .array [.ofPairs [("note", .text "a"), ("parts", .array [
          .ofPairs [("cid", .text "c2"), ("size", .text "1")]])]])])] ∧
      ∃ l row, (orderAdded.changes false).RowAt l row ∧ row.get? RowId.key = some (.text "c2") := by
  have hpayload : orderAdded.changes false = .ofPairs [("oid", .ofNat 1), ("orders", .ofPairs
      [("added", .array [.ofPairs [("note", .text "a"), ("parts", .array [
        .ofPairs [("cid", .text "c2"), ("size", .text "1")]])]])])] := by
    decide +kernel
  refine ⟨by decide +kernel, by decide +kernel, hpayload, ?_⟩
  refine ⟨[.member "orders", .member "added", .item 0, .member "parts", .item 0],
    .ofPairs [("cid", .text "c2"), ("size", .text "1")], ⟨?_, ⟨0, rfl⟩, ⟨_, rfl⟩⟩,
    by decide +kernel⟩
  rw [hpayload]
  decide +kernel

end Form

end SchemaForm

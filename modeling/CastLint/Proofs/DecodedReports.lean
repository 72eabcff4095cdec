import CastLint.Proofs.JsonReading
import CastLint.Report.Document

/-! What programs read from a report. The findings can be decoded from the document, so nothing of
them is lost, and the records on lines hold what the document holds. -/

namespace CastLint
namespace Report

open Lint Json

namespace Json

/-- No object in a value has two fields of one name. -/
inductive HasDistinctNames : Json → Prop
  | string (s : String) : HasDistinctNames (string s)
  | number (n : ℕ) : HasDistinctNames (number n)
  | boolean (b : Bool) : HasDistinctNames (boolean b)
  | array {js : List Json} (h : ∀ j ∈ js, HasDistinctNames j) : HasDistinctNames (array js)
  | object {kjs : List (String × Json)} (hnames : (kjs.map Prod.fst).Nodup)
      (h : ∀ kj ∈ kjs, HasDistinctNames kj.2) : HasDistinctNames (object kjs)

/-! ### Decoding -/

def string? : Json → Option String
  | string s => some s
  | _ => none

def number? : Json → Option ℕ
  | number n => some n
  | _ => none

def items? : Json → Option (List Json)
  | array js => some js
  | _ => none

def field? (name : String) : Json → Option Json
  | object kjs => kjs.lookup name
  | _ => none

/-- What an optional field holds. It may be absent, but it must not hold anything else. -/
def optionalField? {α : Type} (decode : Json → Option α) (name : String) (j : Json) : Option (Option α) :=
  match j.field? name with
  | none => some none
  | some value => (decode value).map some

end Json

def location? (j : Json) : Option Text.Location := do
  some ⟨← (← j.field? "line").number?, ← (← j.field? "column").number?⟩

def range? (j : Json) : Option Text.Range := do
  some ⟨← location? (← j.field? "start"), ← location? (← j.field? "end")⟩

def fix? (j : Json) : Option Fix := do
  if (← (← j.field? "kind").string?) = "replace" then
    some {
      title := ← (← j.field? "title").string?
      newText := ← (← j.field? "new_text").string?
      range := ← range? j }
  else none

def finding? (j : Json) : Option Diagnostic := do
  let location ← j.field? "location"
  some {
    ruleId := ← (← j.field? "rule_id").string?
    messageId := ← j.optionalField? string? "message_id"
    severity := ← Severity.ofName? (← (← j.field? "severity").string?)
    message := ← (← j.field? "message").string?
    file := ← (← location.field? "file").string?
    range := ← range? location
    suggestion := ← j.optionalField? string? "suggestion"
    fixes := ← ((← j.optionalField? items? "fixes").getD []).mapM fix? }

/-- The findings in a document. -/
def findings? (document : Json) : Option (List Diagnostic) := do
  (← (← document.field? "diagnostics").items?).mapM finding?

theorem mapM_map_eq_some {α β : Type} {encode : α → β} {decode : β → Option α}
    (h : ∀ a, decode (encode a) = some a) (as : List α) : (as.map encode).mapM decode = some as := by
  induction as with
  | nil => rfl
  | cons a as ih => simp [h, ih]

@[simp] theorem field?_object (name : String) (kjs : List (String × Json)) :
    field? name (object kjs) = kjs.lookup name := rfl

@[simp] theorem lookup_optional (name key : String) (value : Option Json) :
    (Json.optional name value).lookup key = if key = name then value else none := by
  cases value with
  | none => simp [Json.optional]
  | some j =>
    by_cases h : key = name
    · simp [Json.optional, h]
    · simp [Json.optional, List.lookup_cons, beq_false_of_ne h, h]

theorem optionalField?_eq {α : Type} {decode : Json → Option α} (encode : α → Json) {name : String}
    {j : Json} {value : Option α} (h : ∀ a, decode (encode a) = some a)
    (hfield : j.field? name = value.map encode) : j.optionalField? decode name = some value := by
  rw [optionalField?, hfield]
  cases value with
  | none => rfl
  | some a => simp [h]

theorem fix?_fixJson (f : Fix) : fix? (fixJson f) = some f := rfl

theorem Severity.ofName?_name (s : Severity) : Severity.ofName? s.name = some s := by
  cases s <;> rfl

/-- A finding without fixes has no field for them. -/
theorem fixes_of_fixesJson? {fixes : List Fix} {j : Json} (h : j.field? "fixes" = fixesJson? fixes) :
    (j.optionalField? items? "fixes").bind (fun items => (items.getD []).mapM fix?) = some fixes := by
  rw [optionalField?, h]
  cases fixes with
  | nil => rfl
  | cons f fixes => exact mapM_map_eq_some fix?_fixJson (f :: fixes)

theorem range?_location (file : String) (r : Text.Range) :
    range? (object [("file", string file), ("start", locationJson r.start),
      ("end", locationJson r.stop)]) = some r := rfl

theorem finding?_object (registry : Registry) (d : Diagnostic) :
    finding? (object (findingFields registry d)) = some d := by
  have hmessageId : optionalField? string? "message_id" (object (findingFields registry d)) =
      some d.messageId :=
    optionalField?_eq string (fun _ => rfl)
      (by simp [findingFields, List.lookup_append, List.lookup_cons])
  have hsuggestion : optionalField? string? "suggestion" (object (findingFields registry d)) =
      some d.suggestion :=
    optionalField?_eq string (fun _ => rfl)
      (by simp [findingFields, List.lookup_append, List.lookup_cons])
  have hfield : field? "fixes" (object (findingFields registry d)) = fixesJson? d.fixes := by
    simp [findingFields, List.lookup_append, List.lookup_cons]
  obtain ⟨items, hitems, hfixes⟩ := Option.bind_eq_some_iff.mp (fixes_of_fixesJson? hfield)
  simp only [finding?, hmessageId, hsuggestion, hitems]
  simp [findingFields, List.lookup_append, List.lookup_cons, string?, range?_location, hfixes,
    Severity.ofName?_name]

theorem findings?_document (subject : Subject) (findings : List Diagnostic) :
    findings? (subject.document findings) = some findings :=
  mapM_map_eq_some (finding?_object subject.registry) findings

theorem locationJson_distinct (l : Text.Location) : (locationJson l).HasDistinctNames :=
  .object (by decide : ["line", "column"].Nodup) (by simp [HasDistinctNames.number])

theorem fixJson_distinct (f : Fix) : (fixJson f).HasDistinctNames :=
  .object (by decide : ["title", "kind", "start", "end", "new_text"].Nodup)
    (by simp [HasDistinctNames.string, locationJson_distinct])

theorem summary_distinct (s : Summary) : (object s.fields).HasDistinctNames := by
  have hseverity : s.bySeverity.json.HasDistinctNames :=
    .object (by decide : ["error", "warning", "info", "hint"].Nodup) (by simp [HasDistinctNames.number])
  have hcategory : s.byCategory.json.HasDistinctNames :=
    .object (by decide : ["problem", "suggestion", "layout"].Nodup) (by simp [HasDistinctNames.number])
  refine .object (by decide : ["total_files", "files_with_issues", "total_diagnostics", "fixable",
    "by_severity", "by_category"].Nodup) ?_
  simp [Summary.fields, HasDistinctNames.number, hseverity, hcategory]

theorem names_optional_sublist (name : String) (value : Option Json) :
    ((Json.optional name value).map Prod.fst).Sublist [name] := by
  cases value <;> simp [Json.optional]

/-- The names that the fields of a finding can have, in their order. -/
def findingNames : List String :=
  ["rule_id", "rule_name", "category", "message_id", "severity", "message", "location", "suggestion",
    "fixes"]

theorem names_findingFields_sublist (registry : Registry) (d : Diagnostic) :
    ((findingFields registry d).map Prod.fst).Sublist findingNames := by
  have hoptional := names_optional_sublist
  simp only [findingFields, List.map_append]
  exact ((((((List.Sublist.refl _).append (hoptional _ _)).append (hoptional _ _)).append
    (hoptional _ _)).append (List.Sublist.refl _)).append (hoptional _ _)).append (hoptional _ _)

theorem forall_mem_optional {P : Json → Prop} {name : String} {value : Option Json}
    (h : ∀ j ∈ value, P j) : ∀ kj ∈ Json.optional name value, P kj.2 := by
  cases value with
  | none => simp [Json.optional]
  | some j => simpa [Json.optional] using h j rfl

theorem findingFields_distinct (registry : Registry) (d : Diagnostic) :
    ∀ kj ∈ findingFields registry d, kj.2.HasDistinctNames := by
  have hstring (s : String) : (string s).HasDistinctNames := .string s
  have hlocation : (object [("file", string d.file), ("start", locationJson d.range.start),
      ("end", locationJson d.range.stop)]).HasDistinctNames :=
    .object (by decide : ["file", "start", "end"].Nodup) (by simp [hstring, locationJson_distinct])
  have hfixes : ∀ j ∈ fixesJson? d.fixes, j.HasDistinctNames := by
    cases d.fixes with
    | nil => simp [fixesJson?]
    | cons f fixes =>
      simp only [fixesJson?, Option.mem_def, Option.some.injEq, forall_eq']
      exact .array (List.forall_mem_map.mpr fun f _ => fixJson_distinct f)
  simp only [findingFields, List.forall_mem_append]
  refine ⟨⟨⟨⟨⟨⟨?_, ?_⟩, ?_⟩, ?_⟩, ?_⟩, ?_⟩, ?_⟩
  · simp [hstring]
  · exact forall_mem_optional (by simp [hstring])
  · exact forall_mem_optional (by simp [hstring])
  · exact forall_mem_optional (by simp [hstring])
  · simp [hstring, hlocation]
  · exact forall_mem_optional (by simp [hstring])
  · exact forall_mem_optional hfixes

section

variable (subject : Subject) (findings : List Diagnostic)

theorem metadata_distinct : (object subject.metadataFields).HasDistinctNames :=
  .object (by decide : ["mocklint_version", "working_directory", "analyzed_path"].Nodup)
    (by simp [Subject.metadataFields, HasDistinctNames.string])

theorem finding_distinct (registry : Registry) (d : Diagnostic) :
    (object (findingFields registry d)).HasDistinctNames :=
  .object ((names_findingFields_sublist registry d).nodup (by decide))
    (findingFields_distinct registry d)

theorem document_distinct : (subject.document findings).HasDistinctNames := by
  have hfindings : (array (findings.map fun d =>
      object (findingFields subject.registry d))).HasDistinctNames :=
    .array (List.forall_mem_map.mpr fun d _ => finding_distinct subject.registry d)
  refine .object (by decide : ["version", "metadata", "summary", "diagnostics"].Nodup) ?_
  simp [HasDistinctNames.string, metadata_distinct, summary_distinct, hfindings]

theorem document_isText : IsText (subject.documentText findings) (subject.document findings) :=
  pretty_isText _

theorem read?_documentText :
    read? (subject.documentText findings) = some (subject.document findings) :=
  (document_isText subject findings).read?_eq

/-- Nothing of the findings is lost in a document. It is the text of a value, no object in it has two
fields of one name, and the findings can be decoded from it without anything else being known. -/
theorem documentText_lossless :
    (∀ findings, IsText (subject.documentText findings) (subject.document findings) ∧
      (subject.document findings).HasDistinctNames ∧
      (read? (subject.documentText findings)).bind findings? = some findings) ∧
    Function.Injective subject.documentText := by
  have hdecode (findings : List Diagnostic) :
      (read? (subject.documentText findings)).bind findings? = some findings := by
    rw [read?_documentText, Option.bind_some, findings?_document]
  refine ⟨fun findings => ⟨document_isText subject findings, document_distinct subject findings,
    hdecode findings⟩, fun findings others h => ?_⟩
  have hothers := hdecode others
  rw [← h, hdecode findings] at hothers
  exact Option.some.inj hothers

end

end Report
end CastLint

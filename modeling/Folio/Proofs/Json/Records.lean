/-
# Written records are read back

Every type that is exchanged as JSON has a written form and a reader.  What is written for a value
is read as that value again, if its integers fit the types that they are read as and its brackets
are not nested deeper than the reader admits.

A record is written as an object with its fields in their own order, in which a field may be left
out.  `fields?` finds the fields by their names, and what was left out it finds missing.
-/
import Folio.Autosave.Conflict
import Folio.Proofs.Json.Terms
import Folio.Registry.Entry
import Folio.Settings
import Folio.Store.Contract

namespace Folio

namespace Json

/-! ## 1. Records -/

/-- The fields that are there. -/
def present (fields : List (String × Option Json)) : List (String × Json) :=
  fields.filterMap fun f => f.2.map (f.1, ·)

/-- **A record as it is written**: its fields by their names, without those that are missing. -/
def record (fields : List (String × Option Json)) : Json := .object (present fields)

theorem mem_present {fields : List (String × Option Json)} {m : String × Json} :
    m ∈ present fields ↔ ∃ f ∈ fields, f.1 = m.1 ∧ f.2 = some m.2 := by
  obtain ⟨key, v⟩ := m
  simp [present, and_comm]

theorem integral_record {fields : List (String × Option Json)}
    (h : ∀ f ∈ fields, ∀ v ∈ f.2, v.IsIntegral) : (record fields).IsIntegral := by
  refine .object trivial fun m hm => ?_
  obtain ⟨f, hf, -, hv⟩ := mem_present.mp hm
  exact h f hf m.2 hv

theorem depth_record {fields : List (String × Option Json)} {room : Nat}
    (h : (record fields).depth ≤ room) :
    ∃ inner, room = inner + 1 ∧ ∀ f ∈ fields, ∀ v ∈ f.2, v.depth ≤ inner := by
  obtain ⟨inner, rfl⟩ : ∃ n, room = n + 1 := ⟨room - 1, by rw [record, depth] at h; omega⟩
  refine ⟨inner, rfl, fun f hf v hv => ?_⟩
  exact depth_object_le_iff.mp h (f.1, v) (mem_present.mpr ⟨f, hf, rfl, hv⟩)

theorem mapM_memberTerms (members : List (String × Json)) :
    (memberTerms members).mapM (fun m => m.1.map (·, m.2)) =
      some (members.map fun m => (m.1, m.2.term)) := by
  induction members with
  | nil => rfl
  | cons m rest ih => simp [memberTerms, ih]

/-- The name of a field stands in front of its value and of nothing else. -/
theorem filter_present {fields : List (String × Option Json)} (h : (fields.map (·.1)).Nodup)
    {f : String × Option Json} (hf : f ∈ fields) :
    (present fields).filter (·.1 == f.1) = (f.2.map (f.1, ·)).toList := by
  induction fields with
  | nil => cases hf
  | cons g rest ih =>
    obtain ⟨fresh, differ⟩ := List.nodup_cons.mp h
    have split : present (g :: rest) = (g.2.map (g.1, ·)).toList ++ present rest := by
      unfold present
      rw [List.filterMap_cons]
      cases g.2 <;> rfl
    rw [split, List.filter_append]
    rcases List.mem_cons.mp hf with rfl | later
    · have missing : (present rest).filter (·.1 == f.1) = [] := by
        refine List.filter_eq_nil_iff.mpr fun m hm found => fresh ?_
        obtain ⟨g, hg, name, -⟩ := mem_present.mp hm
        exact List.mem_map.mpr ⟨g, hg, name.trans (eq_of_beq found)⟩
      rw [missing, List.append_nil]
      cases f.2 <;> simp
    · have different : g.1 ≠ f.1 := fun same => fresh (List.mem_map.mpr ⟨f, later, same.symm⟩)
      rw [ih differ later]
      cases g.2 <;> simp [different]

theorem only?_present {fields : List (String × Option Json)} (h : (fields.map (·.1)).Nodup)
    {f : String × Option Json} (hf : f ∈ fields) :
    only? f.1 ((present fields).map fun m => (m.1, m.2.term)) = some (f.2.map term) := by
  rw [only?, List.filter_map]
  simp only [Function.comp_def]
  rw [filter_present h hf]
  cases f.2 <;> rfl

/-- **The fields of a written record are found.** -/
theorem fields?_record {fields : List (String × Option Json)} {names : List String}
    (named : fields.map (·.1) = names) (differ : names.Nodup) (room : Nat) :
    fields? names (room + 1) (record fields).term =
      some (room, fields.map fun f => f.2.map term) := by
  subst names
  have found (some : List (String × Option Json)) (among : ∀ f ∈ some, f ∈ fields) :
      (some.map (·.1)).mapM (fun name =>
        only? name ((present fields).map fun m => (m.1, m.2.term))) =
      .some (some.map fun f => f.2.map term) := by
    induction some with
    | nil => rfl
    | cons f some ih =>
      have others := ih fun g hg => among g (List.mem_cons_of_mem f hg)
      rw [List.map_cons, List.mapM_cons, only?_present differ (among f List.mem_cons_self), others]
      rfl
  rw [record, term, fields?, mapM_memberTerms]
  simp only [Option.bind_eq_bind, Option.bind_some, found fields fun f hf => hf]
  rfl

/-! ## 2. Plain values -/

@[simp]
theorem readString_term (room : Nat) (s : String) : readString room (string s).term = some s := rfl

@[simp]
theorem readBool_term (room : Nat) (b : Bool) : readBool room (bool b).term = some b := rfl

theorem readIntBetween_term (room : Nat) {least greatest i : Int} (fits : (Number.integer i).Fits)
    (between : least ≤ i ∧ i ≤ greatest) :
    readIntBetween least greatest room (ofInt i).term = some i := by
  simp only [ofInt, term, readIntBetween, value?_literal fits, if_pos between]

theorem readInt_term (room : Nat) {i : Int} (h : leastInteger ≤ i ∧ i ≤ greatestSigned) :
    readInt room (ofInt i).term = some i :=
  readIntBetween_term room ⟨h.1, Int.le_trans h.2 (by decide)⟩ h

theorem readNat_term (room : Nat) {n : Nat} (h : (n : Int) ≤ greatestInteger) :
    readNat room (ofNat n).term = some n := by
  have least : leastInteger ≤ (n : Int) := Int.le_trans (by decide) (Int.natCast_nonneg n)
  rw [readNat, ofNat, readIntBetween_term room ⟨least, h⟩ ⟨Int.natCast_nonneg n, h⟩]
  rfl

theorem readStrings_term (room : Nat) (ss : List String) :
    readList readString (room + 1) (ofStrings ss).term = some ss := by
  have items : (itemTerms (ss.map string)).mapM (readString room) = some ss := by
    induction ss with
    | nil => rfl
    | cons s ss ih => simp [itemTerms, ih, term, readString]
  simpa [ofStrings, term, readList] using items

attribute [simp] Every.null Every.bool Every.string

@[simp]
theorem integral_ofInt (i : Int) : (ofInt i).IsIntegral := .number trivial

@[simp]
theorem integral_ofNat (n : Nat) : (ofNat n).IsIntegral := .number trivial

@[simp]
theorem integral_ofStrings (ss : List String) : (ofStrings ss).IsIntegral := by
  refine .array fun v hv => ?_
  obtain ⟨s, -, rfl⟩ := List.mem_map.mp hv
  exact .string s

/-! ## 3. Written forms -/

/-- **A written form and its reader**, for values that fulfil `fits`: no number in the written
form is a double, and the reader finds the value in the tree of the form where the brackets have
room. -/
structure IsWrittenForm {α : Type} (toJson : α → Json) (read : Reads α) (fits : α → Prop) :
    Prop where
  integral : ∀ a, fits a → (toJson a).IsIntegral
  read_term : ∀ a, fits a → ∀ room, (toJson a).depth ≤ room → read room (toJson a).term = some a

/-- **What is written is read back.** -/
def ReadsBack {α : Type} (toJson : α → Json) (read : Reads α) (fits : α → Prop) : Prop :=
  ∀ a, fits a → (toJson a).depth ≤ greatestDepth →
    readText? read (toJson a).compact = some a

section

variable {α : Type} {toJson : α → Json} {read : Reads α} {fits : α → Prop}

theorem IsWrittenForm.readsBack (h : IsWrittenForm toJson read fits) :
    ReadsBack toJson read fits := by
  intro a ha deep
  rw [readText?, term_read?_compact (h.integral a ha), Option.bind_eq_bind, Option.bind_some]
  exact h.read_term a ha greatestDepth deep

/-- The written form of a record has to be looked at field by field: its fields are found, and
from them the reader makes the value. -/
theorem IsWrittenForm.of_record (fields : α → List (String × Option Json)) (names : List String)
    (differ : names.Nodup) (named : ∀ a, (fields a).map (·.1) = names)
    (shape : ∀ a, toJson a = record (fields a))
    (integral : ∀ a, fits a → ∀ f ∈ fields a, ∀ v ∈ f.2, v.IsIntegral)
    (made : ∀ a, fits a → ∀ room t, (∀ f ∈ fields a, ∀ v ∈ f.2, v.depth ≤ room) →
      fields? names (room + 1) t = some (room, (fields a).map fun f => f.2.map term) →
      read (room + 1) t = some a) :
    IsWrittenForm toJson read fits where
  integral a ha := shape a ▸ integral_record (integral a ha)
  read_term a ha room deep := by
    rw [shape a] at deep ⊢
    obtain ⟨inner, rfl, inside⟩ := depth_record deep
    exact made a ha inner _ inside (fields?_record (named a) differ inner)

end

/-- A field that may be missing comes back, whether it is there or not. -/
theorem optional_map {f : α → Json} {item : Reads α} {room : Nat} {o : Option α}
    (h : ∀ a ∈ o, (f a).term ≠ .null ∧ item room (f a).term = some a) :
    optional item room (o.map (term ∘ f)) = some o := by
  cases o with
  | none => rfl
  | some a =>
    obtain ⟨there, found⟩ := h a rfl
    rw [Option.map_some, Function.comp_apply, optional, readOption, found]
    · rfl
    · exact there

@[simp]
theorem required_some (item : Reads α) (room : Nat) (t : Term) :
    required item room (some t) = item room t := rfl

end Json

open Json

/-- The bounds of a signed integer of sixty-four bits. -/
def IsSigned (i : Int) : Prop := leastInteger ≤ i ∧ i ≤ greatestSigned

/-- The bound of an unsigned integer of sixty-four bits. -/
def IsWord (n : Nat) : Prop := (n : Int) ≤ greatestInteger

/-! ## 4. The types that are exchanged -/

/-- The fields of the written form. -/
def Metadata.fields (m : Metadata) : List (String × Option Json) :=
  [("last_modified", some (ofInt m.lastModified)), ("size", some (ofNat m.size))]

/-- The time and the size fit sixty-four bits. -/
def Metadata.Fits (m : Metadata) : Prop := IsSigned m.lastModified ∧ IsWord m.size

theorem Metadata.isWrittenForm : IsWrittenForm toJson read Metadata.Fits := by
  refine .of_record fields ["last_modified", "size"] (by decide)
    (fun m => rfl) (fun m => rfl) (fun m _ => by simp [fields]) ?_
  intro m ⟨signed, word⟩ room t _ found
  simp [read, found, fields, readInt_term room signed, readNat_term room word]

theorem Format.read_term (f : Format) (room : Nat) : read room f.toJson.term = some f := by
  cases room <;> cases f <;> rfl

theorem Format.readTag_term (f : Format) (content : Term) (room : Nat) :
    readTag content room f.toJson.term = some f := by
  cases content <;> first | exact read_term f room | cases f <;> rfl

namespace Content

/-- The value in a content is one that is kept. -/
def IsKept : Content → Prop
  | .json v => v.IsKept
  | .text _ | .base64 _ => True

/-- The fields of the written form. -/
def fields (c : Content) : List (String × Option Json) :=
  [("format", some c.format.toJson), ("content", some c.body)]

theorem IsKept.integral_body {c : Content} (h : c.IsKept) : c.body.IsIntegral := by
  cases c with
  | text s | base64 s => exact .string s
  | json v => exact Json.IsKept.integral h

theorem readBody_term {c : Content} (kept : c.IsKept) {room : Nat} (deep : c.body.depth ≤ room) :
    readBody c.format room c.body.term = some c := by
  cases c with
  | text s | base64 s => rfl
  | json v =>
    have value : v.term.value? room = some v := value?_term kept deep
    simp [readBody, format, body, value]

theorem isWrittenForm : IsWrittenForm toJson read IsKept := by
  refine .of_record fields ["format", "content"] (by decide)
    (fun c => rfl) (fun c => rfl)
    (fun c kept => by simp [fields, Format.toJson, kept.integral_body]) ?_
  intro c kept room t deep found
  have inside : c.body.depth ≤ room := deep ("content", some c.body) (by simp [fields]) _ rfl
  simp [read, found, fields, Format.readTag_term, readBody_term kept inside]

end Content

namespace RemoteFile

/-- The fields of the written form. -/
def fields (f : RemoteFile) : List (String × Option Json) :=
  [("path", some (string f.path)), ("metadata", some f.metadata.toJson),
    ("writable", some (bool f.writable)), ("content", f.content.map Content.toJson)]

/-- What is known of the file fits, and so does its content. -/
def Fits (f : RemoteFile) : Prop := f.metadata.Fits ∧ ∀ c ∈ f.content, c.IsKept

theorem isWrittenForm : IsWrittenForm toJson read Fits := by
  refine .of_record fields ["path", "metadata", "writable", "content"]
    (by decide) (fun f => rfl) ?_ ?_ ?_
  · intro f
    obtain ⟨path, metadata, writable, _ | content⟩ := f <;> rfl
  · intro f ⟨known, kept⟩
    have content : ∀ v c, f.content = some c → c.toJson = v → v.IsIntegral := by
      rintro v c there rfl
      exact Content.isWrittenForm.integral c (kept c there)
    simpa [fields, Metadata.isWrittenForm.integral _ known] using content
  · intro f ⟨known, kept⟩ room t deep found
    have metadata : Metadata.read room f.metadata.toJson.term = some f.metadata :=
      Metadata.isWrittenForm.read_term _ known room
        (deep ("metadata", some f.metadata.toJson) (by simp [fields]) _ rfl)
    have content :
        Json.optional Content.read room (f.content.map (term ∘ Content.toJson)) =
          some f.content := by
      refine optional_map fun c there => ⟨nofun, ?_⟩
      refine Content.isWrittenForm.read_term c (kept c there) room ?_
      exact deep ("content", f.content.map Content.toJson) (by simp [fields]) _
        (Option.mem_map_of_mem _ there)
    simp [read, found, fields, metadata, content]

end RemoteFile

namespace SaveRequest

/-- The fields of the written form. -/
def fields (r : SaveRequest) : List (String × Option Json) :=
  [("content_type", some (string r.contentType)), ("content", some r.content.toJson)]

/-- The content is kept. -/
def Fits (r : SaveRequest) : Prop := r.content.IsKept

theorem isWrittenForm : IsWrittenForm toJson read Fits := by
  refine .of_record fields ["content_type", "content"] (by decide)
    (fun r => rfl) (fun r => rfl)
    (fun r kept => by simp [fields, Content.isWrittenForm.integral _ kept]) ?_
  intro r kept room t deep found
  have content : Content.read room r.content.toJson.term = some r.content :=
    Content.isWrittenForm.read_term _ kept room
      (deep ("content", some r.content.toJson) (by simp [fields]) _ rfl)
  simp [read, found, fields, content]

end SaveRequest

namespace Checkpoint

/-- The fields of the written form. -/
def fields (c : Checkpoint) : List (String × Option Json) :=
  [("id", some (string c.id)), ("last_modified", some (ofInt c.lastModified))]

/-- The time fits sixty-four bits. -/
def Fits (c : Checkpoint) : Prop := IsSigned c.lastModified

theorem isWrittenForm : IsWrittenForm toJson read Fits := by
  refine .of_record fields ["id", "last_modified"] (by decide)
    (fun c => rfl) (fun c => rfl) (fun c _ => by simp [fields]) ?_
  intro c signed room t _ found
  simp [read, found, fields, readInt_term room signed]

end Checkpoint

namespace ConflictPrompt

/-- The fields of the written form; a time that is not known is written down as `null`. -/
def fields (p : ConflictPrompt) : List (String × Option Json) :=
  [("path", some (string p.path)), ("known_last_modified", some (ofOption ofInt p.known)),
    ("remote_last_modified", some (ofInt p.remote))]

/-- The times fit sixty-four bits. -/
def Fits (p : ConflictPrompt) : Prop := (∀ i ∈ p.known, IsSigned i) ∧ IsSigned p.remote

theorem isWrittenForm : IsWrittenForm toJson read Fits := by
  refine .of_record fields
    ["path", "known_last_modified", "remote_last_modified"] (by decide)
    (fun p => rfl) (fun p => rfl) ?_ ?_
  · intro p _
    cases h : p.known <;> simp [fields, h, ofOption]
  · intro p ⟨known, remote⟩ room t _ found
    have seen : Json.optional readInt room (some (ofOption ofInt p.known).term) = some p.known := by
      cases h : p.known with
      | none => rfl
      | some i =>
        refine optional_map (o := some i) fun j hj => ⟨?_, readInt_term room (known j (h ▸ hj))⟩
        simp [ofInt, term]
    simp [read, found, fields, seen, readInt_term room remote]

end ConflictPrompt

namespace OpenHint

/-- The fields of the written form. -/
def fields (h : OpenHint) : List (String × Option Json) :=
  [("mode", h.mode.map string), ("reference", h.reference.map string)]

theorem isWrittenForm : IsWrittenForm toJson read fun _ => True := by
  refine .of_record fields ["mode", "reference"] (by decide)
    (fun h => rfl) ?_ ?_ ?_
  · intro h
    obtain ⟨_ | mode, _ | reference⟩ := h <;> rfl
  · intro h _
    simp [fields]
  · intro h _ room t _ found
    have text (o : Option String) :
        Json.optional readString room (o.map (term ∘ string)) = some o :=
      optional_map fun s _ => ⟨nofun, rfl⟩
    simp [read, found, fields, text]

end OpenHint

namespace FileType

/-- The fields of the written form. -/
def fields (t : FileType) : List (String × Option Json) :=
  [("name", some (string t.name)), ("extensions", some (ofStrings t.extensions)),
    ("mime_types", some (ofStrings t.mimeTypes)), ("content_type", some (string t.contentType)),
    ("file_format", some t.format.toJson)]

theorem isWrittenForm : IsWrittenForm toJson read fun _ => True := by
  refine .of_record fields
    ["name", "extensions", "mime_types", "content_type", "file_format"] (by decide)
    (fun t => rfl) (fun t => rfl) (fun t _ => by simp [fields, Format.toJson]) ?_
  intro f _ room t deep found
  -- a list of texts has brackets of its own, so there is room for one pair more
  have inside : (ofStrings f.extensions).depth ≤ room :=
    deep ("extensions", some (ofStrings f.extensions)) (by simp [fields]) _ rfl
  obtain ⟨room, rfl⟩ : ∃ n, room = n + 1 :=
    ⟨room - 1, by rw [ofStrings, depth] at inside; omega⟩
  simp [read, found, fields, withDefault, readStrings_term, Format.read_term]

end FileType

/-- The fields of the written form. -/
def AutosaveSettings.fields (c : AutosaveSettings) : List (String × Option Json) :=
  [("enabled", some (bool c.enabled)), ("interval_secs", some (ofNat c.intervalSeconds))]

/-- The interval fits sixty-four bits. -/
def AutosaveSettings.Fits (c : AutosaveSettings) : Prop := IsWord c.intervalSeconds

theorem AutosaveSettings.isWrittenForm : IsWrittenForm toJson read AutosaveSettings.Fits := by
  refine .of_record fields ["enabled", "interval_secs"] (by decide)
    (fun c => rfl) (fun c => rfl) (fun c _ => by simp [fields]) ?_
  intro c word room t _ found
  simp [read, found, fields, withDefault, readNat_term room word]

namespace Settings

/-- The fields of the written form. -/
def fields (c : Settings) : List (String × Option Json) := [("autosave", some c.autosave.toJson)]

/-- The settings of autosave fit. -/
def Fits (c : Settings) : Prop := c.autosave.Fits

theorem isWrittenForm : IsWrittenForm toJson read Fits := by
  refine .of_record fields ["autosave"] (by decide)
    (fun c => rfl) (fun c => rfl)
    (fun c fits => by simp [fields, AutosaveSettings.isWrittenForm.integral _ fits]) ?_
  intro c fits room t deep found
  have autosave : AutosaveSettings.read room c.autosave.toJson.term = some c.autosave :=
    AutosaveSettings.isWrittenForm.read_term _ fits room
      (deep ("autosave", some c.autosave.toJson) (by simp [fields]) _ rfl)
  simp [read, found, fields, withDefault, autosave]

/-- **A written configuration is accepted exactly if its interval is positive.** -/
theorem ofText_compact {c : Settings} (fits : c.Fits) :
    ofText c.toJson.compact =
      if 0 < c.autosave.intervalSeconds then .ok c else .error .zeroInterval := by
  have deep : c.toJson.depth ≤ greatestDepth := by
    simp [toJson, AutosaveSettings.toJson, depth, membersDepth, ofNat, ofInt, greatestDepth]
  rw [ofText, isWrittenForm.readsBack c fits deep]
  by_cases positive : 0 < c.autosave.intervalSeconds
  · simp [isValid, positive, Nat.ne_of_gt positive]
  · simp [isValid, Nat.eq_zero_of_not_pos positive]

end Settings

/-- **Every type that is exchanged is read back from what is written for it**, and a
configuration that is written down is accepted if its interval is positive and refused for its
zero interval otherwise. -/
theorem Json.written_forms_read_back :
    ReadsBack Content.toJson Content.read Content.IsKept ∧
      ReadsBack Metadata.toJson Metadata.read Metadata.Fits ∧
      ReadsBack RemoteFile.toJson RemoteFile.read RemoteFile.Fits ∧
      ReadsBack SaveRequest.toJson SaveRequest.read SaveRequest.Fits ∧
      ReadsBack Checkpoint.toJson Checkpoint.read Checkpoint.Fits ∧
      ReadsBack ConflictPrompt.toJson ConflictPrompt.read ConflictPrompt.Fits ∧
      ReadsBack OpenHint.toJson OpenHint.read (fun _ => True) ∧
      ReadsBack FileType.toJson FileType.read (fun _ => True) ∧
      ReadsBack Settings.toJson Settings.read Settings.Fits ∧
      ∀ c : Settings, c.Fits → Settings.ofText c.toJson.compact =
        if 0 < c.autosave.intervalSeconds then .ok c else .error .zeroInterval :=
  ⟨Content.isWrittenForm.readsBack, Metadata.isWrittenForm.readsBack,
    RemoteFile.isWrittenForm.readsBack, SaveRequest.isWrittenForm.readsBack,
    Checkpoint.isWrittenForm.readsBack, ConflictPrompt.isWrittenForm.readsBack,
    OpenHint.isWrittenForm.readsBack, FileType.isWrittenForm.readsBack,
    Settings.isWrittenForm.readsBack, fun _ => Settings.ofText_compact⟩

/-- A value with both bounds of the integers, an escaped key and brackets in brackets. -/
def Json.nested : Json :=
  .object [("\n", .array [ofInt leastInteger, ofInt greatestInteger]),
    ("\"", .object [("", .null), ("ü", .array [.bool true, .string "\u0001"])])]

theorem Json.isKept_nested : nested.IsKept := by
  have numbers : (array [ofInt leastInteger, ofInt greatestInteger]).IsKept := by
    refine .array fun v hv => ?_
    simp only [List.mem_cons, List.not_mem_nil, or_false] at hv
    rcases hv with rfl | rfl <;> exact .number (by simp only [Number.Fits]; decide)
  have texts : (array [.bool true, .string "\u0001"]).IsKept := .array (by simp)
  have inner : (object [("", .null), ("ü", .array [.bool true, .string "\u0001"])]).IsKept := by
    refine .object (by decide) fun m hm => ?_
    simp only [List.mem_cons, List.not_mem_nil, or_false] at hm
    rcases hm with rfl | rfl
    · exact .null
    · exact texts
  refine .object (by decide) fun m hm => ?_
  simp only [List.mem_cons, List.not_mem_nil, or_false] at hm
  rcases hm with rfl | rfl
  · exact numbers
  · exact inner

/-- A file with such a content is read back, and a zero interval is refused. -/
theorem Json.written_forms_read_back_nested :
    readText? RemoteFile.read
        (RemoteFile.toJson ⟨"a/ü.json", ⟨-1, 7⟩, false, some (.json nested)⟩).compact =
      some ⟨"a/ü.json", ⟨-1, 7⟩, false, some (.json nested)⟩ ∧
    Settings.ofText (Settings.toJson ⟨⟨false, 0⟩⟩).compact = .error .zeroInterval := by
  obtain ⟨-, -, file, -, -, -, -, -, -, settings⟩ := written_forms_read_back
  refine ⟨file _ ⟨?_, ?_⟩ ?_, settings ⟨⟨false, 0⟩⟩ ?_⟩
  · simp only [Metadata.Fits, IsSigned, IsWord]
    decide
  · intro c hc
    cases hc
    exact isKept_nested
  · decide
  · simp only [Settings.Fits, AutosaveSettings.Fits, IsWord]
    decide

end Folio

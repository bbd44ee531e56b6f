import ContractKit.Deployment.Interact
import ContractKit.Proofs.Json.Reread
import ContractKit.Proofs.Project.RoundTrip

/-!
# The file of records

The records of deployments are kept in one file, by network and by name.  A record that is added
is found under its network and its name, and every other record stays where it is.
-/

namespace ContractKit

namespace Deployment

/-! ## Records in a tree -/

def recordsPath : Path := .ofText recordsFile

theorem recordsPath_named : recordsPath.Named := Path.named_ofText recordsFile

theorem recordsPath_eq : recordsPath = ⟨false, [recordsFile]⟩ := by decide +kernel

theorem recordsPath_text : recordsPath.text = recordsFile := by decide +kernel

/-- The fields of a document, if it is an object. -/
def fieldsOf : Json → Option (Assoc String Json)
  | .obj fields => some fields
  | _ => none

/-- The records of a text, by network, if it is the text of an object. -/
def recordsOf (text : String) : Option (Assoc String Json) :=
  (Json.parse text).toOption.bind fieldsOf

/-- The records in a tree, by network: none at all if there is no file of records, and nothing to
speak of if the file is no object. -/
def recordsIn (t : Tree) : Option (Assoc String Json) :=
  if t.exists? recordsPath = .ok false then some []
  else (t.textAt recordsPath).toOption.bind recordsOf

/-- The records under a network, by name. -/
def entriesOf (fields : Assoc String Json) (network : String) : Assoc String Json :=
  match Assoc.get? network fields with
  | some (.obj known) => known
  | _ => []

def recordIn (t : Tree) (network name : String) : Option Json :=
  (recordsIn t).bind fun fields => Assoc.get? name (entriesOf fields network)

def putRecord (fields : Assoc String Json) (network name : String) (entry : Json) :
    Assoc String Json :=
  Assoc.set network (.obj (Assoc.set name entry (entriesOf fields network))) fields

/-- What stands under the network, if anything does, can take records. -/
def IsOpen (fields : Assoc String Json) (network : String) : Prop :=
  ∀ j, Assoc.get? network fields = some j → ∃ known, j = .obj known

section Put

variable {fields : Assoc String Json} {network other name : String} {entry : Json}

theorem entriesOf_putRecord (fields : Assoc String Json) (network name : String) (entry : Json) :
    entriesOf (putRecord fields network name entry) network =
      Assoc.set name entry (entriesOf fields network) := by
  rw [entriesOf, putRecord, Assoc.get?_set_self]

theorem entriesOf_putRecord_of_ne (h : other ≠ network) :
    entriesOf (putRecord fields network name entry) other = entriesOf fields other := by
  rw [entriesOf, putRecord, Assoc.get?_set_of_ne h]
  rfl

theorem readable_entriesOf (h : Json.Readable (.obj fields)) (network : String) :
    Json.Readable (.obj (entriesOf fields network)) := by
  unfold entriesOf
  split
  case h_1 known hknown => exact h.of_get? hknown
  case h_2 => exact ⟨List.nodup_nil, trivial⟩

theorem readable_putRecord (h : Json.Readable (.obj fields)) (hentry : Json.Readable entry) :
    Json.Readable (.obj (putRecord fields network name entry)) :=
  Json.readable_set h network (Json.readable_set (readable_entriesOf h network) name hentry)

end Put

/-! ## Adding a record -/

section With

variable {records updated entry : Json} {network name : String}

/-- Only an object has an element under a text. -/
theorem eq_obj_of_item {key : String} {j : Json} (h : records.item (.str key) = .ok j) :
    ∃ fields, records = .obj fields ∧ Assoc.get? key fields = some j := by
  cases records with
  | obj fields =>
    simp only [Json.item] at h
    split at h
    case h_1 v hv => exact ⟨fields, rfl, hv.trans (congrArg some (Except.ok.inj h))⟩
    case h_2 => cases h
  | _ => simp [Json.item, Json.index?] at h

/-- Only in an object an element is set under a text. -/
theorem eq_obj_of_setItem {key : String} {v : Json}
    (h : records.setItem (.str key) v = .ok updated) :
    ∃ fields, records = .obj fields ∧ updated = .obj (Assoc.set key v fields) := by
  cases records with
  | obj fields => exact ⟨fields, rfl, (Except.ok.inj h).symm⟩
  | _ => simp [Json.setItem, Json.index?] at h

/-- A record is set in what stands under the network. -/
theorem withRecord_present {fields : Assoc String Json} {known : Json}
    (h : Assoc.get? network fields = some known) :
    withRecord (.obj fields) (.str network) name entry =
      known.setItem (.str name) entry >>= Json.setItem (.obj fields) (.str network) := by
  have hhas : Assoc.has network fields = true := by simp [Assoc.has, h]
  simp [withRecord, Json.hasItem, Json.item, hhas, h]
  rfl

theorem withRecord_absent {fields : Assoc String Json} (h : Assoc.get? network fields = none) :
    withRecord (.obj fields) (.str network) name entry =
      .ok (.obj (Assoc.set network (.obj [(name, entry)]) fields)) := by
  have hhas : Assoc.has network fields = false := by simp [Assoc.has, h]
  simp only [withRecord, Json.hasItem, Json.item, hhas, Json.setItem, Assoc.set, bind, Except.bind,
    Assoc.get?_set_self, Assoc.set_set, pure, Except.pure, Bool.false_eq_true, if_false]

/-- Only to an object a record is added under a text. -/
theorem eq_obj_of_withRecord (h : withRecord records (.str network) name entry = .ok updated) :
    ∃ fields, records = .obj fields := by
  obtain ⟨has, -, hbase⟩ := exists_of_bind_eq_ok h
  cases has with
  | true =>
    obtain ⟨base, hsame, hknown⟩ := exists_of_bind_eq_ok hbase
    obtain rfl : records = base := Except.ok.inj hsame
    obtain ⟨known, hitem, -⟩ := exists_of_bind_eq_ok hknown
    obtain ⟨fields, hfields, -⟩ := eq_obj_of_item hitem
    exact ⟨fields, hfields⟩
  | false =>
    obtain ⟨base, hset, -⟩ := exists_of_bind_eq_ok hbase
    obtain ⟨fields, hfields, -⟩ := eq_obj_of_setItem hset
    exact ⟨fields, hfields⟩

/-- A record is added to an object in which the network is open. -/
theorem withRecord_eq_ok_iff :
    withRecord records (.str network) name entry = .ok updated ↔
      ∃ fields, records = .obj fields ∧ IsOpen fields network ∧
        updated = .obj (putRecord fields network name entry) := by
  constructor
  · intro h
    obtain ⟨fields, rfl⟩ := eq_obj_of_withRecord h
    refine ⟨fields, rfl, ?_⟩
    cases hget : Assoc.get? network fields with
    | none =>
      rw [withRecord_absent hget] at h
      refine ⟨fun j hj => absurd (hget.symm.trans hj) (by simp), ?_⟩
      rw [← Except.ok.inj h, putRecord, entriesOf, hget]
      rfl
    | some known =>
      rw [withRecord_present hget] at h
      obtain ⟨known', hset, hput⟩ := exists_of_bind_eq_ok h
      obtain ⟨entries, rfl, rfl⟩ := eq_obj_of_setItem hset
      refine ⟨fun j hj => ⟨entries, Option.some.inj (hj.symm.trans hget)⟩, ?_⟩
      rw [← Except.ok.inj hput, putRecord, entriesOf, hget]
  · rintro ⟨fields, rfl, hopen, rfl⟩
    cases hget : Assoc.get? network fields with
    | none =>
      rw [withRecord_absent hget, putRecord, entriesOf, hget]
      rfl
    | some known =>
      obtain ⟨entries, rfl⟩ := hopen known hget
      rw [withRecord_present hget, putRecord, entriesOf, hget]
      rfl

end With

/-! ## The file -/

section File

variable {t t' : Tree} {s s' : Session} {fields : Assoc String Json} {network name : String}
  {entry : Json}

theorem fieldsOf_eq_some {j : Json} : fieldsOf j = some fields ↔ j = .obj fields := by
  cases j <;> simp [fieldsOf]

theorem readable_recordsIn (h : recordsIn t = some fields) : Json.Readable (.obj fields) := by
  unfold recordsIn at h
  split_ifs at h
  · obtain rfl := Option.some.inj h
    exact ⟨List.nodup_nil, trivial⟩
  · obtain ⟨text, -, hfields⟩ := Option.bind_eq_some_iff.mp h
    obtain ⟨j, hparse, hj⟩ := Option.bind_eq_some_iff.mp hfields
    rw [← fieldsOf_eq_some.mp hj]
    exact Json.readable_of_parse (toOption_eq_some.mp hparse)

/-- The document of records, an empty one if there is no file. -/
def loadRecords : SessionM Json := do
  if ← exists? recordsPath then readDocument recordsFile else pure (.obj [])

/-- Writes a document of records with one more record. -/
def addRecord (network name : String) (entry records : Json) : SessionM Unit := do
  streamDocument recordsFile (← demand (withRecord records (.str network) name entry))

theorem keepRecord_eq (network name : String) (entry : Json) :
    keepRecord (.str network) name entry = loadRecords >>= addRecord network name entry := by
  unfold keepRecord loadRecords
  rw [bind_assoc]
  congr 1
  funext there
  cases there <;> rfl

theorem loadRecords_run (s : Session) :
    ∃ r, loadRecords s = endWith r s ∧ recordsIn s.files = r.toOption.bind fieldsOf := by
  have hexists := exists?_run recordsPath s
  have hread := readText_run recordsPath_named s
  rw [recordsPath_text] at hread
  cases hthere : s.files.exists? recordsPath with
  | error fault =>
    rw [hthere] at hexists
    refine ⟨.error _, bind_error hexists, ?_⟩
    cases htext : s.files.textAt recordsPath with
    | error p => simp [recordsIn, hthere, htext, Except.toOption]
    | ok text => exact absurd (hthere.symm.trans (Project.exists?_of_textAt htext)) (by simp)
  | ok there =>
    rw [hthere] at hexists
    cases there with
    | false => exact ⟨.ok (.obj []), bind_ok hexists, by rw [recordsIn, if_pos hthere]; rfl⟩
    | true =>
      have hload : loadRecords s = readDocument recordsFile s := bind_ok hexists
      rw [hload, recordsIn, if_neg (by simp [hthere])]
      cases htext : s.files.textAt recordsPath with
      | error p =>
        rw [htext] at hread
        exact ⟨.error p, bind_error hread, rfl⟩
      | ok text =>
        rw [htext] at hread
        have hparse : readDocument recordsFile s = parseDocument text s := bind_ok hread
        rw [hparse, parseDocument]
        cases hdocument : Json.parse text with
        | error e =>
          exact ⟨.error (.noDocument e), rfl, by simp [Except.toOption, recordsOf, hdocument]⟩
        | ok j => exact ⟨.ok j, rfl, by simp [Except.toOption, recordsOf, hdocument]⟩

/-- The second tree is the first one with a record added to those of its file. -/
def Adds (t : Tree) (fields : Option (Assoc String Json)) (network name : String) (entry : Json)
    (t' : Tree) : Prop :=
  ∃ known, fields = some known ∧ IsOpen known network ∧
    t.write recordsPath (Text.utf8 (Json.obj (putRecord known network name entry)).pretty) = .ok t'

theorem streamDocument_eq {document : Json} (h : document.Readable) (name : String) :
    streamDocument name document = writeDocument name document := by
  rw [streamDocument, Json.written, Json.brokenOff?_of_readable h]
  exact bind_pure (writeDocument name document)

theorem addRecord_run {entry records : Json} (hentry : entry.Readable)
    (hrecords : ∀ known, fieldsOf records = some known → Json.Readable (.obj known))
    (network name : String) (s : Session) :
    ∃ r, addRecord network name entry records s = endWithFiles r s ∧
      ∀ t', r = .ok t' ↔ Adds s.files (fieldsOf records) network name entry t' := by
  unfold addRecord
  cases h : withRecord records (.str network) name entry with
  | error cause =>
    refine ⟨.error (.misuse cause), rfl, fun t' => iff_of_false (by simp) ?_⟩
    rintro ⟨fields, hfields, hopen, -⟩
    have hadded : withRecord records (.str network) name entry =
        .ok (.obj (putRecord fields network name entry)) :=
      withRecord_eq_ok_iff.mpr ⟨fields, fieldsOf_eq_some.mp hfields, hopen, rfl⟩
    exact absurd (h.symm.trans hadded) (by simp)
  | ok updated =>
    obtain ⟨fields, rfl, hopen, rfl⟩ := withRecord_eq_ok_iff.mp h
    have hwrite := writeText_run recordsPath_named
      (Json.obj (putRecord fields network name entry)).pretty s
    rw [recordsPath_text] at hwrite
    have hdemand : demand (.ok (Json.obj (putRecord fields network name entry))) s =
        .ok (Json.obj (putRecord fields network name entry)) s := rfl
    rw [bind_ok hdemand, streamDocument_eq (readable_putRecord (hrecords fields rfl) hentry)]
    refine ⟨_, hwrite, fun t' => ?_⟩
    rw [onPath_eq_ok]
    constructor
    · intro hput
      exact ⟨fields, rfl, hopen, hput⟩
    · rintro ⟨_, ⟨⟩, -, hput⟩
      exact hput

/-- Adding a record that can be written to the file of records: the file is written as a whole or
nothing is done. -/
theorem keepRecord_run {entry : Json} (hentry : entry.Readable) (network name : String)
    (s : Session) :
    ∃ r, keepRecord (.str network) name entry s = endWithFiles r s ∧
      ∀ t', r = .ok t' ↔ Adds s.files (recordsIn s.files) network name entry t' := by
  obtain ⟨loaded, hload, hrecords⟩ := loadRecords_run s
  rw [keepRecord_eq]
  cases loaded with
  | error p =>
    refine ⟨.error p, bind_error hload, fun t' => iff_of_false (by simp) ?_⟩
    rw [hrecords]
    rintro ⟨fields, ⟨⟩, -⟩
  | ok records =>
    obtain ⟨r, hrun, hr⟩ := addRecord_run hentry
      (fun known hknown => readable_recordsIn (hrecords.trans hknown)) network name s
    rw [hrecords]
    exact ⟨r, (bind_ok hload).trans hrun, hr⟩

/-- What is kept of an object that was written. -/
theorem recordsIn_of_write (h : t.write recordsPath (Text.utf8 (Json.obj fields).pretty) = .ok t')
    (hfields : Json.Readable (.obj fields)) : recordsIn t' = some fields := by
  have htext : t'.textAt recordsPath = .ok (Json.obj fields).pretty :=
    Tree.textAt_of_read (Tree.read_of_write h) (Json.not_mem_pretty hfields)
  have hexists := Project.exists?_of_textAt htext
  rw [recordsIn, if_neg (by simp [hexists]), htext]
  simp [Except.toOption, recordsOf, Json.parse_pretty hfields, fieldsOf]

/-- In a directory, records that can be spoken of can be written again. -/
theorem exists_write_records (h : recordsIn t = some fields)
    (hdirectory : t.node? t.workingDirectory = some .directory) (content : List UInt8) :
    ∃ t', t.write recordsPath content = .ok t' := by
  unfold recordsIn at h
  split_ifs at h with habsent
  · have hplace : t.place recordsPath = .ok (t.workingDirectory ++ [recordsFile]) := by
      rw [recordsPath_eq, Tree.place_of_relative rfl]
      exact Tree.walk_name hdirectory (by decide +kernel) (by decide +kernel)
    have hnode : t.node? (t.workingDirectory ++ [recordsFile]) = none := by
      simpa [Tree.exists?, hplace] using habsent
    exact Tree.exists_write hplace (by simp [hnode]) content
  · obtain ⟨text, htext, -⟩ := Option.bind_eq_some_iff.mp h
    obtain ⟨content', hread⟩ := Tree.exists_read_of_textAt (toOption_eq_some.mp htext)
    obtain ⟨p, mode, hplace, hnode⟩ := Tree.read_eq_ok.mp hread
    exact Tree.exists_write hplace (by simp [hnode]) content

/-! ## Looking up -/

theorem recordIn_eq_some {r : Json} :
    recordIn t network name = some r ↔
      ∃ fields known, recordsIn t = some fields ∧ Assoc.get? network fields = some (.obj known) ∧
        Assoc.get? name known = some r := by
  constructor
  · intro h
    obtain ⟨fields, hfields, hr⟩ := Option.bind_eq_some_iff.mp h
    unfold entriesOf at hr
    split at hr
    case h_1 known hknown => exact ⟨fields, known, hfields, hknown, hr⟩
    case h_2 => simp [Assoc.get?] at hr
  · rintro ⟨fields, known, hfields, hknown, hr⟩
    rw [recordIn, hfields, Option.bind_some, entriesOf, hknown]
    exact hr

theorem readDocument_of_recordsIn (h : recordsIn s.files = some fields) (hne : fields ≠ []) :
    exists? recordsPath s = .ok true s ∧ readDocument recordsFile s = .ok (.obj fields) s := by
  unfold recordsIn at h
  split_ifs at h
  · exact absurd (Option.some.inj h).symm hne
  · obtain ⟨text, htext, hfields⟩ := Option.bind_eq_some_iff.mp h
    obtain ⟨j, hparse, hj⟩ := Option.bind_eq_some_iff.mp hfields
    rw [toOption_eq_some] at htext hparse
    have hexists := exists?_run recordsPath s
    rw [Project.exists?_of_textAt htext] at hexists
    have hread := Project.readText_of_textAt recordsPath_named htext
    rw [recordsPath_text] at hread
    refine ⟨hexists, (bind_ok hread).trans ?_⟩
    rw [parseDocument, hparse, fieldsOf_eq_some.mp hj]
    rfl

/-- A record is looked up under its network and its name. -/
theorem recordOf_of_recordIn {config r : Json}
    (hconfig : config.field "network" = .ok (.str network))
    (h : recordIn s.files network name = some r) : recordOf config name s = .ok r s := by
  obtain ⟨fields, known, hfields, hknown, hr⟩ := recordIn_eq_some.mp h
  have hne : fields ≠ [] := by
    rintro rfl
    simp [Assoc.get?] at hknown
  obtain ⟨hexists, hread⟩ := readDocument_of_recordsIn hfields hne
  have hnetwork : (Json.obj fields).hasItem (.str network) = .ok true := by
    simp [Json.hasItem, Assoc.has, hknown]
  have hhere : (Json.obj fields).item (.str network) = .ok (.obj known) := by
    simp [Json.item, hknown]
  have hname : (Json.obj known).hasItem (.str name) = .ok true := by
    simp [Json.hasItem, Assoc.has, hr]
  have hfound : (Json.obj known).field name = .ok r := by simp [Json.field, Json.item, hr]
  refine (bind_ok hexists).trans ((bind_ok hread).trans ?_)
  simp only [demand, hconfig, hnetwork, hhere, hname, hfound, pure_bind, if_true]
  rfl

end File

end Deployment

end ContractKit

import ContractKit.Proofs.Text.Decode
import ContractKit.Proofs.Workspace.Tree
import ContractKit.Session.Basic

/-!
# What tasks do to the files of a session

Tasks are taken apart into what they do to the files: an operation on a file is the operation of
the tree, and reports and questions leave the files and the outside as they are.
-/

namespace ContractKit

variable {texts : List (String × String)} {name text : String} {entry : String × String}

variable {α β : Type} {s s' s'' : Session}

/-! ## Tasks in turn -/

theorem bind_ok {x : SessionM α} {f : α → SessionM β} {a : α} (h : x s = .ok a s') :
    (x >>= f) s = f a s' := by
  simp only [bind, EStateM.bind, h]

theorem bind_error {x : SessionM α} {f : α → SessionM β} {p : Problem} (h : x s = .error p s') :
    (x >>= f) s = .error p s' := by
  simp only [bind, EStateM.bind, h]

theorem of_bind_ok {x : SessionM α} {f : α → SessionM β} {b : β} (h : (x >>= f) s = .ok b s'') :
    ∃ a s', x s = .ok a s' ∧ f a s' = .ok b s'' := by
  cases hx : x s with
  | ok a s' => exact ⟨a, s', rfl, (bind_ok hx).symm.trans h⟩
  | error p s' => simp [bind_error hx] at h

theorem attempt_ok {x : SessionM α} {a : α} (h : x s = .ok a s') :
    attempt x s = .ok (.ok a) s' := by
  simp only [attempt, h]

theorem attempt_error {x : SessionM α} {p : Problem} (h : x s = .error p s') :
    attempt x s = .ok (.error p) s' := by
  simp only [attempt, h]

/-- How a task ends that only looks at a session. -/
def endWith (x : Except Problem α) (s : Session) : EStateM.Result Problem Session α :=
  match x with
  | .ok a => .ok a s
  | .error p => .error p s

theorem attempt_endWith {x : SessionM α} {r : Except Problem α} (h : x s = endWith r s') :
    attempt x s = .ok r s' := by
  cases r with
  | ok a => exact attempt_ok h
  | error p => exact attempt_error h

/-- How a task ends that changes the files of a session. -/
def endWithFiles (x : Except Problem Tree) (s : Session) : EStateM.Result Problem Session Unit :=
  match x with
  | .ok t => .ok () { s with files := t }
  | .error p => .error p s

theorem toOption_eq_some {ε α : Type} {x : Except ε α} {a : α} :
    x.toOption = some a ↔ x = .ok a := by
  cases x <;> simp [Except.toOption]

/-! ## Reports and questions -/

/-- The second session is the first one after some reports and questions. -/
structure Reported (s s' : Session) : Prop where
  files : s'.files = s.files
  outside : s'.outside = s.outside

theorem Reported.refl (s : Session) : Reported s s := ⟨rfl, rfl⟩

theorem Reported.trans (h : Reported s s') (h' : Reported s' s'') : Reported s s'' :=
  ⟨h'.files.trans h.files, h'.outside.trans h.outside⟩

theorem report_run (text : String) (s : Session) :
    ∃ s', report text s = .ok () s' ∧ Reported s s' :=
  ⟨_, rfl, rfl, rfl⟩

theorem note_run (call : Call) (s : Session) : ∃ s', note call s = .ok () s' ∧ Reported s s' :=
  ⟨_, rfl, rfl, rfl⟩

theorem outside_run (s : Session) : outside s = .ok s.outside s := rfl

theorem reportAll_run (lines : List String) (s : Session) :
    ∃ s', reportAll lines s = .ok () s' ∧ Reported s s' := by
  induction lines generalizing s with
  | nil => exact ⟨s, rfl, .refl s⟩
  | cons line rest ih =>
    obtain ⟨s₁, hfirst, hreported⟩ := report_run line s
    obtain ⟨s', hrest, hreported'⟩ := ih s₁
    exact ⟨s', (bind_ok hfirst).trans hrest, hreported.trans hreported'⟩

/-! ## Files -/

/-- The outcome of an operation on a file, as a task has it. -/
def onPath (path : Path) : Except FileFault α → Except Problem α
  | .ok a => .ok a
  | .error fault => .error (.file fault path.text)

theorem onPath_eq_ok {path : Path} {x : Except FileFault α} {a : α} :
    onPath path x = .ok a ↔ x = .ok a := by
  cases x <;> simp [onPath]

def Tree.textAt (t : Tree) (path : Path) : Except Problem String :=
  match t.read path with
  | .error fault => .error (.file fault path.text)
  | .ok content =>
    match Text.readText content with
    | .ok text => .ok text
    | .error fault => .error (.undecodable fault)

theorem Tree.exists_read_of_textAt {t : Tree} {path : Path} (h : t.textAt path = .ok text) :
    ∃ content, t.read path = .ok content := by
  unfold Tree.textAt at h
  cases hread : t.read path with
  | error fault => simp [hread] at h
  | ok content => exact ⟨content, rfl⟩

/-- An operation that changes the files, as a task. -/
theorem changeFiles_run (path : Path) (change : Tree → Except FileFault Tree) (s : Session) :
    (do
      let s ← get
      let files ← onFile path.text (change s.files)
      set { s with files := files } : SessionM Unit) s =
    endWithFiles (onPath path (change s.files)) s := by
  rw [bind_ok (show (get : SessionM Session) s = .ok s s from rfl)]
  cases h : change s.files with
  | ok t => rfl
  | error fault => rfl

theorem makeDirectory_run (path : Path) (s : Session) :
    makeDirectory path s = endWithFiles (onPath path (s.files.makeDirectory path)) s :=
  changeFiles_run path (·.makeDirectory path) s

theorem makeDirectories_run (path : Path) (s : Session) :
    makeDirectories path s = endWithFiles (onPath path (s.files.makeDirectories path)) s :=
  changeFiles_run path (·.makeDirectories path) s

theorem writeText_run {path : Path} (h : path.Named) (text : String) (s : Session) :
    writeText path.text text s =
      endWithFiles (onPath path (s.files.write path (Text.utf8 text))) s := by
  rw [writeText, if_neg (Path.text_ne_empty h), Path.ofText_text h]
  exact changeFiles_run path (·.write path (Text.utf8 text)) s

theorem readBytes_run {path : Path} (h : path.Named) (s : Session) :
    readBytes path.text s = endWith (onPath path (s.files.read path)) s := by
  rw [readBytes, if_neg (Path.text_ne_empty h), Path.ofText_text h]
  rw [bind_ok (show (get : SessionM Session) s = .ok s s from rfl)]
  cases s.files.read path <;> rfl

theorem readText_run {path : Path} (h : path.Named) (s : Session) :
    readText path.text s = endWith (s.files.textAt path) s := by
  have hbytes := readBytes_run h s
  unfold Tree.textAt
  cases hread : s.files.read path with
  | error fault =>
    rw [hread] at hbytes
    exact bind_error hbytes
  | ok content =>
    rw [hread] at hbytes
    refine (bind_ok hbytes).trans ?_
    cases htext : Text.readText content with
    | ok text => simp only [htext]; rfl
    | error fault => simp only [htext]; rfl

/-- A change of the file of a name, as a task, is done if it can be. -/
theorem changeFile_eq_ok (name : String) (change : Tree → Except FileFault Tree) :
    (do
      let s ← get
      let files ← onFile name (change s.files)
      set { s with files := files } : SessionM Unit) s = .ok () s' ↔
    ∃ t, change s.files = .ok t ∧ s' = { s with files := t } := by
  rw [bind_ok (show (get : SessionM Session) s = .ok s s from rfl)]
  cases h : change s.files with
  | error fault => exact iff_of_false (by rintro ⟨⟩) (by simp)
  | ok t =>
    constructor
    · rintro ⟨⟩
      exact ⟨t, rfl, rfl⟩
    · rintro ⟨_, ⟨⟩, rfl⟩
      rfl

theorem writeText_eq_ok :
    writeText name text s = .ok () s' ↔
      name ≠ "" ∧ ∃ t, s.files.write (.ofText name) (Text.utf8 text) = .ok t ∧
        s' = { s with files := t } := by
  unfold writeText
  by_cases h : name = ""
  · rw [if_pos h]
    exact iff_of_false (by rintro ⟨⟩) (by simp [h])
  · rw [if_neg h]
    exact (changeFile_eq_ok name (·.write (.ofText name) (Text.utf8 text))).trans
      (and_iff_right h).symm

theorem setMode_eq_ok {mode : Nat} :
    setMode name mode s = .ok () s' ↔
      ∃ t, s.files.setMode (.ofText name) mode = .ok t ∧ s' = { s with files := t } :=
  changeFile_eq_ok name (·.setMode (.ofText name) mode)

theorem readText_of_read (hname : name ≠ "")
    (h : s.files.read (.ofText name) = .ok (Text.utf8 text)) (hreturn : '\r' ∉ text.toList) :
    readText name s = .ok text s := by
  have hbytes : readBytes name s = .ok (Text.utf8 text) s := by
    rw [readBytes, if_neg hname, bind_ok (show (get : SessionM Session) s = .ok s s from rfl), h]
    rfl
  rw [readText, bind_ok hbytes, Text.readText_utf8 hreturn]
  rfl

theorem exists?_run (path : Path) (s : Session) :
    exists? path s = endWith (onPath path (s.files.exists? path)) s := by
  rw [exists?, bind_ok (show (get : SessionM Session) s = .ok s s from rfl)]
  cases s.files.exists? path <;> rfl

/-! ## Texts in a directory -/

section Texts

variable {t t' : Tree} {d : Place} {directory : Path}

namespace Tree

/-- The tree after texts were written in a directory, and the problem that ended it, if any. -/
def writeTexts (t : Tree) (directory : Path) : List (String × String) → Tree × Option Problem
  | [] => (t, none)
  | entry :: rest =>
    match onPath (directory.join entry.1)
        (t.write (directory.join entry.1) (Text.utf8 entry.2)) with
    | .error p => (t, some p)
    | .ok t' => writeTexts t' directory rest

theorem writeTexts_cons_ok {rest : List (String × String)}
    (h : t.write (directory.join entry.1) (Text.utf8 entry.2) = .ok t') :
    t.writeTexts directory (entry :: rest) = t'.writeTexts directory rest := by
  simp only [writeTexts, h, onPath]

theorem writeTexts_cons_error {rest : List (String × String)} {fault : FileFault}
    (h : t.write (directory.join entry.1) (Text.utf8 entry.2) = .error fault) :
    t.writeTexts directory (entry :: rest) =
      (t, some (.file fault (directory.join entry.1).text)) := by
  simp only [writeTexts, h, onPath]

theorem changes_writeTexts (hd : t.HasDirectory directory d)
    (hentries : ∀ entry ∈ texts, Path.IsEntry entry.1) :
    Changes (fun p node => (∃ entry ∈ texts, p = d ++ [entry.1]) ∧ node.isDirectory = false) t
      (t.writeTexts directory texts).1 := by
  induction texts generalizing t with
  | nil => exact .refl _ _
  | cons entry rest ih =>
    cases h : t.write (directory.join entry.1) (Text.utf8 entry.2) with
    | error fault =>
      rw [writeTexts_cons_error h]
      exact .refl _ _
    | ok t' =>
      rw [writeTexts_cons_ok h]
      have hchanges := changes_write h
      refine (hchanges.mono ?_).trans ((ih (hchanges.hasDirectory hd) ?_).mono ?_)
      · rintro p node ⟨hplace, mode, rfl⟩
        have hp := eq_of_place_entry hd (hentries entry List.mem_cons_self) hplace
        exact ⟨⟨entry, List.mem_cons_self, hp.1⟩, rfl⟩
      · exact fun entry he => hentries entry (List.mem_cons_of_mem _ he)
      · rintro p node ⟨⟨entry, he, hp⟩, hnode⟩
        exact ⟨⟨entry, List.mem_cons_of_mem _ he, hp⟩, hnode⟩

/-- The text is that of the file of its name in a directory. -/
structure HasText (t : Tree) (d : Place) (entry : String × String) : Prop where
  short : (Text.utf8 entry.1).length ≤ longestName
  file : ∃ mode, t.node? (d ++ [entry.1]) = some (.file (Text.utf8 entry.2) mode)

theorem HasText.read (h : t.HasText d entry) (hd : t.HasDirectory directory d)
    (hentry : Path.IsEntry entry.1) :
    t.read (directory.join entry.1) = .ok (Text.utf8 entry.2) := by
  obtain ⟨mode, hnode⟩ := h.file
  have hplace := place_entry hd hentry
  rw [if_neg (Nat.not_lt.mpr h.short)] at hplace
  exact read_eq_ok.mpr ⟨_, mode, hplace, hnode⟩

/-- A text is read as it was written, unless it has returns. -/
theorem textAt_of_read {path : Path} (h : t.read path = .ok (Text.utf8 text))
    (hreturn : '\r' ∉ text.toList) : t.textAt path = .ok text := by
  rw [Tree.textAt, h]
  simp only [Text.readText_utf8 hreturn]

theorem hasText_writeTexts (hd : t.HasDirectory directory d)
    (hentries : ∀ entry ∈ texts, Path.IsEntry entry.1) (hnodup : (texts.map Prod.fst).Nodup)
    (h : (t.writeTexts directory texts).2 = none) :
    ∀ entry ∈ texts, (t.writeTexts directory texts).1.HasText d entry := by
  induction texts generalizing t with
  | nil => simp
  | cons first rest ih =>
    have hentries' : ∀ entry ∈ rest, Path.IsEntry entry.1 :=
      fun entry he => hentries entry (List.mem_cons_of_mem _ he)
    rw [List.map_cons, List.nodup_cons] at hnodup
    cases hwrite : t.write (directory.join first.1) (Text.utf8 first.2) with
    | error fault => simp [writeTexts_cons_error hwrite] at h
    | ok t' =>
      rw [writeTexts_cons_ok hwrite] at h ⊢
      have hd' := (changes_write hwrite).hasDirectory hd
      intro entry he
      rcases List.mem_cons.mp he with rfl | he
      · obtain ⟨hshort, mode, rfl⟩ := write_entry hd (hentries entry List.mem_cons_self) hwrite
        refine ⟨hshort, mode, ?_⟩
        -- The texts that follow have other names.
        rw [(changes_writeTexts hd' hentries').same, node?_setNode_self t (by simp)]
        rintro node ⟨⟨other, hother, hp⟩, -⟩
        have hsame : entry.1 = other.1 := by simpa using hp
        exact hnodup.1 (hsame ▸ List.mem_map_of_mem hother)
      · exact ih hd' hentries' hnodup.2 h entry he

/-- Texts can be written if no name is too long and no directory is in their place. -/
theorem writeTexts_ok (hd : t.HasDirectory directory d)
    (hentries : ∀ entry ∈ texts, Path.IsEntry entry.1)
    (hlength : ∀ entry ∈ texts, (Text.utf8 entry.1).length ≤ longestName)
    (hnode : ∀ entry ∈ texts, t.node? (d ++ [entry.1]) ≠ some .directory) :
    (t.writeTexts directory texts).2 = none := by
  induction texts generalizing t with
  | nil => rfl
  | cons first rest ih =>
    have hfirst := List.mem_cons_self (a := first) (l := rest)
    obtain ⟨t', hwrite⟩ := write_entry_ok hd (hentries first hfirst) (hlength first hfirst)
      (hnode first hfirst) (Text.utf8 first.2)
    rw [writeTexts_cons_ok hwrite]
    refine ih ((changes_write hwrite).hasDirectory hd)
      (fun entry he => hentries entry (List.mem_cons_of_mem _ he))
      (fun entry he => hlength entry (List.mem_cons_of_mem _ he)) fun entry he => ?_
    intro hdirectory
    rcases (changes_write hwrite).node (d ++ [entry.1]) with hsame | ⟨node, ⟨-, mode, rfl⟩, hput⟩
    · exact hnode entry (List.mem_cons_of_mem _ he) (hsame ▸ hdirectory)
    · simp [hput] at hdirectory

end Tree

/-- How a task ends that writes texts in a directory. -/
def endWithTexts (r : Tree × Option Problem) (s : Session) : EStateM.Result Problem Session Unit :=
  match r.2 with
  | none => .ok () { s with files := r.1 }
  | some p => .error p { s with files := r.1 }

theorem forM_writeText_run (hdirectory : directory.Named)
    (hentries : ∀ entry ∈ texts, Path.IsEntry entry.1) (s : Session) :
    (texts.forM fun entry => writeText (directory.join entry.1).text entry.2) s =
      endWithTexts (s.files.writeTexts directory texts) s := by
  induction texts generalizing s with
  | nil => rfl
  | cons entry rest ih =>
    have hnamed := hdirectory.join (hentries entry List.mem_cons_self).toIsName
    have hfirst := writeText_run hnamed entry.2 s
    cases hwrite : s.files.write (directory.join entry.1) (Text.utf8 entry.2) with
    | error fault =>
      rw [hwrite] at hfirst
      rw [Tree.writeTexts_cons_error hwrite]
      exact bind_error hfirst
    | ok t =>
      rw [hwrite] at hfirst
      rw [Tree.writeTexts_cons_ok hwrite]
      refine (bind_ok hfirst).trans ?_
      exact ih (fun entry he => hentries entry (List.mem_cons_of_mem _ he)) _

end Texts

end ContractKit

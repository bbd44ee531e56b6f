import ContractKit.Project.Build
import ContractKit.Proofs.Session.Files

/-!
# Writing artifacts

The artifacts of a contract are three texts in a directory that has the name of the contract.
They are written in turn, up to the first that cannot be written.  The files of different contracts
are at different places, so writing those of one leaves those of another.
-/

namespace ContractKit.Project

variable {t t' : Tree} {base : Place} {output : Path} {name : String}

/-! ## The places of artifacts -/

/-- What the names of the artifacts of a contract end with. -/
def artifactSuffixes : List String := [".json", "_abi.json", "_bytecode.txt"]

def directoryAt (base : Place) (name : String) : Place :=
  if name = "." then base else if name = ".." then base.dropLast else base ++ [name]

def fileAt (base : Place) (name suffix : String) : Place :=
  directoryAt base name ++ [name ++ suffix]

theorem directoryAt_entry (base : Place) (h : Path.IsEntry name) :
    directoryAt base name = base ++ [name] := by
  rw [directoryAt, if_neg h.ne_dot, if_neg h.ne_up]

theorem ne_of_mem_artifactSuffixes {suffix suffix' : String} (h : suffix ∈ artifactSuffixes)
    (h' : suffix' ∈ artifactSuffixes) : "." ++ suffix ≠ ".." ++ suffix' := by
  simp only [artifactSuffixes, List.mem_cons, List.not_mem_nil, or_false] at h h'
  rcases h with rfl | rfl | rfl <;> rcases h' with rfl | rfl | rfl <;> decide

/-- The files of different contracts are at different places, and so are those of one. -/
theorem fileAt_inj {name' suffix suffix' : String} (hsuffix : suffix ∈ artifactSuffixes)
    (hsuffix' : suffix' ∈ artifactSuffixes)
    (h : fileAt base name suffix = fileAt base name' suffix') :
    name = name' ∧ suffix = suffix' := by
  obtain ⟨hdirectory, hfile⟩ := List.append_inj' h rfl
  have hfile : name ++ suffix = name' ++ suffix' := by simpa using hfile
  have hname : name = name' := by
    have hlength := congrArg List.length hdirectory
    unfold directoryAt at hdirectory hlength
    split_ifs at hdirectory hlength with h₁ h₂ h₃ h₄ h₅ h₆
    · rw [h₁, h₂]
    · exact absurd (h₁ ▸ h₃ ▸ hfile) (ne_of_mem_artifactSuffixes hsuffix hsuffix')
    · simp at hlength
    · exact absurd (h₄ ▸ h₅ ▸ hfile.symm) (ne_of_mem_artifactSuffixes hsuffix' hsuffix)
    · rw [h₄, h₆]
    · simp at hlength
    · simp at hlength
    · simp at hlength
      omega
    · simpa using hdirectory
  refine ⟨hname, ?_⟩
  rw [hname] at hfile
  exact String.toList_inj.mp (by simpa using congrArg String.toList hfile)

/-- The path of the artifacts of a contract leads to their directory, unless its name is too
long. -/
theorem place_directoryAt (hbase : t.HasDirectory output base) (hname : Path.IsStem name) :
    t.place (output.join name) =
      if longestName < (Text.utf8 name).length then .error .nameTooLong
      else .ok (directoryAt base name) := by
  by_cases hdot : name = "."
  · rw [hdot, Path.join_dot, hbase.place]
    rfl
  · have hname : Path.IsName name := ⟨hname.noSlash, hname.ne_empty, hdot⟩
    by_cases hup : name = ".."
    · rw [Tree.place_join hbase.place hname, hup]
      simp [Tree.walk, hbase.isDirectory, directoryAt]
    · rw [Tree.place_entry hbase ⟨hname, hup⟩, directoryAt_entry base ⟨hname, hup⟩]

theorem eq_directoryAt (hbase : t.HasDirectory output base) (hname : Path.IsStem name) {p : Place}
    (h : t.place (output.join name) = .ok p) : p = directoryAt base name := by
  rw [place_directoryAt hbase hname] at h
  split at h
  · simp at h
  · exact (Except.ok.inj h).symm

/-! ## Writing them -/

/-- What writing the artifacts of a contract may put into the tree: their directory and files. -/
def ArtifactPut (base : Place) (name : String) (p : Place) (node : Node) : Prop :=
  p = directoryAt base name ∧ node = .directory ∨
    (∃ suffix ∈ artifactSuffixes, p = fileAt base name suffix) ∧ node.isDirectory = false

/-- The artifacts of a contract by the names of their files. -/
def artifactTexts (name : String) (document interface : Json) (code : String) :
    List (String × String) :=
  [(name ++ ".json", document.pretty), (name ++ "_abi.json", interface.pretty),
    (name ++ "_bytecode.txt", code)]

/-- Nothing is in the way of the artifacts of a contract: their names are not too long, there is no
file in the place of their directory and no directory in their places. -/
structure Room (t : Tree) (base : Place) (name : String) : Prop where
  short : (Text.utf8 (name ++ "_bytecode.txt")).length ≤ longestName
  directory : ∀ node, t.node? (directoryAt base name) = some node → node = .directory
  files : ∀ suffix ∈ artifactSuffixes, t.node? (fileAt base name suffix) ≠ some .directory

/-- The artifacts of a contract are there. -/
structure Holds (t : Tree) (base : Place) (name : String) (document interface : Json)
    (code : String) : Prop where
  directory : t.node? (directoryAt base name) = some .directory
  texts : ∀ entry ∈ artifactTexts name document interface code,
    t.HasText (directoryAt base name) entry

/-- What is known of a contract whose artifacts were written. -/
def builtOf (output : Path) (name : String) (interface : Json) (code : String) : Built where
  outputFile := ((output.join name).join (name ++ ".json")).text
  interfaceFile := ((output.join name).join (name ++ "_abi.json")).text
  codeFile := ((output.join name).join (name ++ "_bytecode.txt")).text
  interface := interface
  code := code

variable {document interface : Json} {code : String} {s s' : Session}

theorem map_fst_artifactTexts :
    (artifactTexts name document interface code).map Prod.fst = artifactSuffixes.map (name ++ ·) :=
  rfl

theorem exists_suffix {entry : String × String}
    (h : entry ∈ artifactTexts name document interface code) :
    ∃ suffix ∈ artifactSuffixes, entry.1 = name ++ suffix := by
  have hmem := List.mem_map_of_mem (f := Prod.fst) h
  rw [map_fst_artifactTexts] at hmem
  obtain ⟨suffix, hsuffix, hname⟩ := List.mem_map.mp hmem
  exact ⟨suffix, hsuffix, hname.symm⟩

theorem isEntry_artifactTexts (hname : Path.IsStem name) (document interface : Json)
    (code : String) :
    ∀ entry ∈ artifactTexts name document interface code, Path.IsEntry entry.1 := by
  have hplain : ∀ suffix ∈ artifactSuffixes, '/' ∉ suffix.toList ∧ 3 ≤ suffix.length := by decide
  intro entry he
  obtain ⟨suffix, hsuffix, hentry⟩ := exists_suffix he
  rw [hentry]
  exact Path.isEntry_append hname.noSlash (hplain suffix hsuffix).1 (hplain suffix hsuffix).2

theorem nodup_artifactTexts :
    ((artifactTexts name document interface code).map Prod.fst).Nodup := by
  rw [map_fst_artifactTexts]
  refine List.Nodup.map (fun suffix suffix' h => ?_) (by decide)
  exact String.toList_inj.mp (by simpa using congrArg String.toList h)

theorem length_utf8_append (a b : String) :
    (Text.utf8 (a ++ b)).length = (Text.utf8 a).length + (Text.utf8 b).length := by
  simp [Text.utf8, Text.pointsOf]

theorem Room.length_le (h : Room t base name) {suffix : String}
    (hsuffix : suffix ∈ artifactSuffixes) :
    (Text.utf8 (name ++ suffix)).length ≤ longestName := by
  have hlengths : ∀ suffix ∈ artifactSuffixes,
      (Text.utf8 suffix).length ≤ (Text.utf8 "_bytecode.txt").length := by decide
  have hshort := h.short
  have hsuffix := hlengths suffix hsuffix
  rw [length_utf8_append] at hshort ⊢
  omega

/-- A directory with the artifacts of a contract can be made if there is room. -/
theorem Room.makeDirectory (h : Room t base name) (hbase : t.HasDirectory output base)
    (hname : Path.IsStem name) : ∃ t', t.makeDirectory (output.join name) = .ok t' := by
  have hplace := place_directoryAt hbase hname
  have hshort := h.short
  rw [length_utf8_append] at hshort
  rw [if_neg (by omega)] at hplace
  simp only [Tree.makeDirectory, hplace, bind, Except.bind]
  split
  · exact ⟨_, rfl⟩
  case h_2 hfile => exact absurd (h.directory _ hfile) (by simp)
  · exact ⟨_, rfl⟩

section Made

variable (hbase : t.HasDirectory output base) (hname : Path.IsStem name)
  (hmade : t.makeDirectory (output.join name) = .ok t')

include hbase hname hmade

theorem hasDirectory_of_made : t'.HasDirectory (output.join name) (directoryAt base name) := by
  obtain ⟨p, hplace, hnode⟩ := Tree.directory_of_makeDirectory hmade
  obtain rfl := eq_directoryAt hbase hname hplace
  exact ⟨(Tree.changes_makeDirectory hmade).place hplace, hnode⟩

/-- Whatever was written of the artifacts, nothing else is put into the tree. -/
theorem changes_artifacts (document interface : Json) (code : String) :
    Tree.Changes (ArtifactPut base name) t
      (t'.writeTexts (output.join name) (artifactTexts name document interface code)).1 := by
  have hd := hasDirectory_of_made hbase hname hmade
  refine ((Tree.changes_makeDirectory hmade).mono ?_).trans
    ((Tree.changes_writeTexts hd (isEntry_artifactTexts hname document interface code)).mono ?_)
  · rintro p node ⟨hplace, hnode⟩
    exact .inl ⟨eq_directoryAt hbase hname hplace, hnode⟩
  · rintro p node ⟨⟨entry, he, rfl⟩, hnode⟩
    obtain ⟨suffix, hsuffix, hentry⟩ := exists_suffix he
    exact .inr ⟨⟨suffix, hsuffix, by rw [hentry]; rfl⟩, hnode⟩

theorem Room.writeTexts (h : Room t base name) (document interface : Json) (code : String) :
    (t'.writeTexts (output.join name) (artifactTexts name document interface code)).2 = none := by
  have hd := hasDirectory_of_made hbase hname hmade
  refine Tree.writeTexts_ok hd (isEntry_artifactTexts hname document interface code) ?_ ?_
  · intro entry he
    obtain ⟨suffix, hsuffix, hentry⟩ := exists_suffix he
    rw [hentry]
    exact h.length_le hsuffix
  · intro entry he
    obtain ⟨suffix, hsuffix, hentry⟩ := exists_suffix he
    -- Making the directory has put nothing into it.
    rw [hentry, (Tree.changes_makeDirectory hmade).same]
    · exact h.files suffix hsuffix
    · rintro node ⟨hplace, -⟩
      have hlength := congrArg List.length (eq_directoryAt hbase hname hplace)
      simp at hlength

end Made

theorem writeArtifacts_eq (output : Path) (name : String) (document interface : Json)
    (code : String) :
    writeArtifacts output name document interface code = (do
      makeDirectory (output.join name)
      (artifactTexts name document interface code).forM fun entry =>
        writeText ((output.join name).join entry.1).text entry.2
      return builtOf output name interface code) := by
  simp [writeArtifacts, artifactTexts, writeDocument, builtOf]

/-- Writing the artifacts of a contract puts nothing else into the tree.  If it is done they are
there, and it is done if nothing is in their way.  Nothing is written at an absolute path. -/
theorem writeArtifacts_outcome (houtput : output.Named)
    (hbase : output.absolute = false → s.files.HasDirectory output base)
    (hname : Path.IsStem name) (document interface : Json) (code : String) :
    ∃ outcome s', attempt (writeArtifacts output name document interface code) s =
        .ok outcome s' ∧ s'.outside = s.outside ∧
      Tree.Changes (ArtifactPut base name) s.files s'.files ∧
      (∀ built, outcome = .ok built → output.absolute = false ∧
        built = builtOf output name interface code ∧
        Holds s'.files base name document interface code) ∧
      (output.absolute = false → Room s.files base name → ∃ built, outcome = .ok built) := by
  rw [writeArtifacts_eq]
  have hmake := makeDirectory_run (output.join name) s
  cases hmade : s.files.makeDirectory (output.join name) with
  | error fault =>
    rw [hmade] at hmake
    refine ⟨_, s, attempt_error (bind_error hmake), rfl, .refl _ _, by simp,
      fun hrelative hroom => ?_⟩
    obtain ⟨t, ht⟩ := hroom.makeDirectory (hbase hrelative) hname
    simp [ht] at hmade
  | ok t =>
    rw [hmade] at hmake
    have hbase : s.files.HasDirectory output base := by
      obtain ⟨p, hplace, -⟩ := Tree.directory_of_makeDirectory hmade
      exact hbase (Path.absolute_join output hname ▸ Tree.relative_of_place hplace)
    have hwrite := forM_writeText_run (houtput.directory hname)
      (isEntry_artifactTexts hname document interface code)
      { s with files := t }
    have hchanges := changes_artifacts hbase hname hmade document interface code
    cases hproblem : (t.writeTexts (output.join name)
        (artifactTexts name document interface code)).2 with
    | none =>
      simp only [endWithTexts, hproblem] at hwrite
      refine ⟨_, _, attempt_ok ((bind_ok hmake).trans (bind_ok hwrite)), rfl, hchanges, ?_,
        fun _ _ => ⟨_, rfl⟩⟩
      intro built hbuilt
      obtain rfl := Except.ok.inj hbuilt
      have hd := hasDirectory_of_made hbase hname hmade
      have hentries := isEntry_artifactTexts hname document interface code
      refine ⟨Tree.relative_of_place hbase.place, rfl, ?_, ?_⟩
      · exact (Tree.changes_writeTexts hd hentries).directory hd.isDirectory
      · exact Tree.hasText_writeTexts hd hentries nodup_artifactTexts hproblem
    | some p =>
      simp only [endWithTexts, hproblem] at hwrite
      refine ⟨_, _, attempt_error ((bind_ok hmake).trans (bind_error hwrite)), rfl, hchanges,
        by simp, fun _ hroom => ?_⟩
      simp [Room.writeTexts hbase hname hmade hroom] at hproblem

theorem Holds.bytes (h : Holds t base name document interface code)
    (hbase : t.HasDirectory output base) (hname : Path.IsStem name) {artifact text : String}
    (he : (artifact, text) ∈ artifactTexts name document interface code) :
    t.read ((output.join name).join artifact) = .ok (Text.utf8 text) := by
  have hentry := isEntry_artifactTexts hname document interface code _ he
  obtain ⟨suffix, -, hsuffix⟩ := exists_suffix he
  have hlength := (h.texts _ he).short
  rw [hsuffix, length_utf8_append] at hlength
  have hplace := place_directoryAt hbase hname
  rw [if_neg (by omega)] at hplace
  exact (h.texts _ he).read ⟨hplace, h.directory⟩ hentry

/-- Writing the artifacts of other contracts leaves those of one. -/
theorem Holds.of_changes {put : Place → Node → Prop}
    (h : Holds t base name document interface code) (hchanges : Tree.Changes put t t')
    (hput : ∀ p node, put p node → ∃ other, other ≠ name ∧ ArtifactPut base other p node) :
    Holds t' base name document interface code := by
  refine ⟨hchanges.directory h.directory, fun entry he => ⟨(h.texts entry he).short, ?_⟩⟩
  obtain ⟨mode, hnode⟩ := (h.texts entry he).file
  obtain ⟨suffix, hsuffix, hentry⟩ := exists_suffix he
  refine ⟨mode, ?_⟩
  rcases hchanges.node (directoryAt base name ++ [entry.1]) with hsame | ⟨node, hnew, hp⟩
  · rw [hsame, hnode]
  · obtain ⟨other, hne, ⟨-, rfl⟩ | ⟨⟨suffix', hsuffix', hplace⟩, -⟩⟩ := hput _ node hnew
    · -- A directory cannot take the place of a file.
      obtain ⟨node', hp', hkind⟩ := hchanges.kind _ _ hnode
      rw [hp] at hp'
      obtain rfl := Option.some.inj hp'
      simp [Node.isDirectory] at hkind
    · rw [hentry] at hplace
      exact absurd (fileAt_inj hsuffix hsuffix' hplace).1.symm hne

end ContractKit.Project

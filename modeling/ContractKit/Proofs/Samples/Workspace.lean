import ContractKit.Proofs.Evm.DeclaredValues
import ContractKit.Proofs.Project.Reports

/-!
# A workspace with contracts

A workspace that has a directory with contracts and nothing else.  Its contracts can be built into a
directory of their own.
-/

namespace ContractKit.Samples

open Project

variable {files : List (String × String)} {file text : String}

/-! ## Its tree -/

def contractNode (file : String × String) : Place × Node :=
  (["contracts", file.1], .file (Text.utf8 file.2) newFileMode)

def contractsTree (files : List (String × String)) : Tree where
  nodes := (["contracts"], .directory) :: files.map contractNode

/-- The tree with a directory of contracts and an empty one for artifacts. -/
def madeTree (files : List (String × String)) : Tree :=
  (contractsTree files).setNode ["build"] .directory

def contractsOnly (files : List (String × String)) : Session := { files := contractsTree files }

theorem keys_contractsTree (p : Place) (h : p ∈ Assoc.keys (contractsTree files).nodes) :
    p.head? = some "contracts" := by
  simp only [Assoc.keys, contractsTree, List.map_cons, List.map_map, List.mem_cons,
    List.mem_map] at h
  rcases h with rfl | ⟨file, -, rfl⟩
  · rfl
  · rfl

theorem node?_contractsTree {p : Place} (hne : p ≠ []) (hp : p.head? ≠ some "contracts") :
    (contractsTree files).node? p = none := by
  rw [Tree.node?_of_ne _ hne]
  exact Assoc.get?_eq_none_of_not_mem_keys fun hmem => hp (keys_contractsTree p hmem)

theorem makeDirectories_contractsTree :
    (contractsTree files).makeDirectories (.ofText "build") = .ok (madeTree files) := by
  have hpath : Path.ofText "build" = ⟨false, ["build"]⟩ := by decide
  have hnode : (contractsTree files).node? ["build"] = none :=
    node?_contractsTree (by decide) (by decide)
  have hplace : (contractsTree files).place ⟨false, ["build"]⟩ = .ok ["build"] := by
    rw [Tree.place_of_relative rfl]
    exact Tree.walk_name rfl (by decide) (by decide)
  rw [hpath, Tree.makeDirectories_eq, hplace, if_neg (by simp), Tree.makeDirectory, hplace]
  simp only [bind, Except.bind, hnode, madeTree]

theorem hasDirectory_build : (madeTree files).HasDirectory (.ofText "build") ["build"] := by
  have hnode : (madeTree files).node? ["build"] = some .directory :=
    Tree.node?_setNode_self _ (by decide) _
  have hpath : Path.ofText "build" = ⟨false, ["build"]⟩ := by decide
  refine ⟨?_, hnode⟩
  rw [hpath, Tree.place_of_relative rfl]
  exact Tree.walk_name rfl (by decide) (by decide)

theorem hasDirectory_contractsTree :
    (contractsTree files).HasDirectory (.ofText "contracts") ["contracts"] := by
  have hpath : Path.ofText "contracts" = ⟨false, ["contracts"]⟩ := by decide
  refine ⟨?_, rfl⟩
  rw [hpath, Tree.place_of_relative rfl]
  exact Tree.walk_name rfl (by decide) (by decide)

theorem changes_madeTree :
    Tree.Changes (fun _ node => node = .directory) (contractsTree files) (madeTree files) :=
  (Tree.changes_makeDirectories (P := fun _ => True) makeDirectories_contractsTree (by simp)
    (by simp)).mono fun _ _ h => h.1

theorem hasDirectory_contracts :
    (madeTree files).HasDirectory (.ofText "contracts") ["contracts"] :=
  changes_madeTree.hasDirectory hasDirectory_contractsTree

theorem nodes_madeTree : (madeTree files).nodes =
    (["contracts"], .directory) :: files.map contractNode ++ [(["build"], .directory)] := by
  have hnode : (contractsTree files).node? ["build"] = none :=
    node?_contractsTree (by decide) (by decide)
  rw [Tree.node?_of_ne _ (by decide)] at hnode
  exact Assoc.set_of_not_has (by simp [Assoc.has, hnode]) _

theorem names_madeTree (h : (files.map Prod.fst).Pairwise (· ≤ ·)) :
    (madeTree files).names (.ofText "contracts") = files.map Prod.fst := by
  have hbelow : (madeTree files).namesBelow ["contracts"] = files.map Prod.fst := by
    rw [Tree.namesBelow, nodes_madeTree]
    simp only [List.cons_append, List.filterMap_cons, List.filterMap_append, List.filterMap_map]
    simp [contractNode, Function.comp_def]
  rw [Tree.names_eq hasDirectory_contracts.place hasDirectory_contracts.isDirectory, hbelow]
  exact List.mergeSort_of_pairwise (by simpa using h)

/-- The node of a contract, if contracts have different names. -/
theorem node?_contract (hnames : (files.map Prod.fst).Nodup) (h : (file, text) ∈ files) :
    (madeTree files).node? ["contracts", file] = some (.file (Text.utf8 text) newFileMode) := by
  have hkeys : (Assoc.keys (contractsTree files).nodes).Nodup := by
    simp only [Assoc.keys, contractsTree, List.map_cons, List.map_map, List.nodup_cons]
    refine ⟨by simp [contractNode], ?_⟩
    have hmap : files.map (Prod.fst ∘ contractNode) =
        (files.map Prod.fst).map fun name => ["contracts", name] := by simp [contractNode]
    rw [hmap]
    exact hnames.map fun a b hab => by simpa using hab
  rw [madeTree, Tree.node?_setNode_of_ne _ (by simp), Tree.node?_of_ne _ (by simp)]
  refine Assoc.get?_of_mem hkeys (List.mem_cons_of_mem _ ?_)
  exact List.mem_map_of_mem (f := contractNode) h

/-! ## Its contracts -/

section Text

variable (hnames : (files.map Prod.fst).Nodup) (h : (file, text) ∈ files)
  (hfile : Path.IsEntry file) (hlength : (Text.utf8 file).length ≤ longestName)
  (htext : '\r' ∉ text.toList)

include hnames h hfile hlength htext

theorem textAt_contractsOnly :
    (madeTree files).textAt ((Path.ofText "contracts").join file) = .ok text := by
  have hhas : (madeTree files).HasText ["contracts"] (file, text) :=
    ⟨hlength, newFileMode, node?_contract hnames h⟩
  exact Tree.textAt_of_read (hhas.read hasDirectory_contracts hfile) htext

theorem sourceAt_contractsOnly :
    sourceAt (madeTree files) (.ofText "contracts") file = compiledSource text := by
  rw [sourceAt, textAt_contractsOnly hnames h hfile hlength htext]

end Text

/-- Contracts are listed in order, and their names are such that they can be built. -/
structure Tidy (files : List (String × String)) : Prop where
  noSlash : ∀ file ∈ files, '/' ∉ file.1.toList
  ordered : (files.map Prod.fst).Pairwise (· ≤ ·)
  stems : (((files.map Prod.fst).filter (Path.endsWith ".py")).map Path.stemOf).Nodup
  entries : ∀ file ∈ files, Path.endsWith ".py" file.1 = true →
    Path.stemOf file.1 ≠ "." ∧ Path.stemOf file.1 ≠ ".."
  short : ∀ file ∈ files, Path.endsWith ".py" file.1 = true →
    (Text.utf8 (Path.stemOf file.1 ++ "_bytecode.txt")).length ≤ longestName

theorem filesIn_madeTree (h : Tidy files) (ending : String) :
    filesIn (madeTree files) (.ofText "contracts") ending =
      (files.map Prod.fst).filter (Path.endsWith ending) := by
  rw [filesIn, names_madeTree h.ordered]

theorem Tidy.proper (h : Tidy files) : (contractsTree files).Proper := by
  refine ⟨fun p node hnode name hname => ?_, by simp [contractsTree]⟩
  by_cases hp : p = []
  · simp [hp] at hname
  · rw [Tree.node?_of_ne _ hp] at hnode
    rcases List.mem_cons.mp (Assoc.mem_of_get? hnode) with hentry | hentry
    · obtain rfl : p = ["contracts"] := congrArg Prod.fst hentry
      rw [List.mem_singleton.mp hname]
      decide
    · obtain ⟨file, hfile, hentry⟩ := List.mem_map.mp hentry
      obtain rfl : ["contracts", file.1] = p := congrArg Prod.fst hentry
      rcases List.mem_cons.mp hname with rfl | hname
      · decide
      · rw [List.mem_singleton.mp hname]
        exact h.noSlash file hfile

/-- There is room for the artifacts of any contract whose name is not too long. -/
theorem room_madeTree {name : String} (hname : Path.IsEntry name)
    (hshort : (Text.utf8 (name ++ "_bytecode.txt")).length ≤ longestName) :
    Room (madeTree files) ["build"] name := by
  have hnone : ∀ p : Place, (madeTree files).node? (["build", name] ++ p) = none := by
    intro p
    rw [madeTree, Tree.node?_setNode_of_ne _ (by simp)]
    exact node?_contractsTree (by simp) (by simp)
  refine ⟨hshort, fun node hnode => ?_, fun suffix _ hdirectory => ?_⟩
  · rw [directoryAt_entry _ hname] at hnode
    exact absurd ((hnone []).symm.trans hnode) (by simp)
  · rw [fileAt, directoryAt_entry _ hname] at hdirectory
    exact absurd ((hnone [name ++ suffix]).symm.trans hdirectory) (by simp)

/-- The Python contracts of such a workspace can be built. -/
theorem buildable_contractsOnly (h : Tidy files) :
    Buildable (.ofText "contracts") (.ofText "build") none (contractsOnly files) (madeTree files)
      ["build"] := by
  have hpython : ∀ name ∈ filesIn (madeTree files) (.ofText "contracts") ".py",
      ∃ file ∈ files, file.1 = name ∧ Path.endsWith ".py" file.1 = true := by
    intro name hname
    rw [filesIn_madeTree h, List.mem_filter, List.mem_map] at hname
    obtain ⟨⟨file, hfile, rfl⟩, hending⟩ := hname
    exact ⟨file, hfile, rfl, hending⟩
  have hmade : (madeTree files).Proper :=
    h.proper.makeDirectories (Path.named_ofText "build") makeDirectories_contractsTree
  have hentries : ∀ name ∈ filesIn (madeTree files) (.ofText "contracts") ".py",
      Path.IsEntry (Path.stemOf name) := by
    intro name hname
    have hstem := isStem_of_mem hmade hname
    obtain ⟨file, hfile, rfl, hending⟩ := hpython name hname
    have hplain := h.entries file hfile hending
    exact ⟨⟨hstem.noSlash, hstem.ne_empty, hplain.1⟩, hplain.2⟩
  refine ⟨h.proper, makeDirectories_contractsTree, .inl rfl, hasDirectory_build, ?_, hentries, ?_⟩
  · rw [filesIn_madeTree h]
    exact h.stems
  · intro name hname
    have hentry := hentries name hname
    obtain ⟨file, hfile, rfl, hending⟩ := hpython name hname
    exact room_madeTree hentry (h.short file hfile hending)

/-! ## A contract in it -/

theorem compiledSource_box : ∃ c, compiledSource Evm.boxText = .ok c := by
  obtain ⟨r, hok, -⟩ := Evm.compile_box
  exact ⟨_, by rw [compiledSource, hok]⟩

theorem textAt_box (hnames : (files.map Prod.fst).Nodup) (h : ("Box.py", Evm.boxText) ∈ files) :
    (madeTree files).textAt ((Path.ofText "contracts").join "Box.py") = .ok Evm.boxText :=
  textAt_contractsOnly hnames h ⟨⟨by decide, by decide, by decide⟩, by decide⟩ (by decide)
    (by decide +kernel)

theorem sourceAt_box (hnames : (files.map Prod.fst).Nodup) (h : ("Box.py", Evm.boxText) ∈ files) :
    sourceAt (madeTree files) (.ofText "contracts") "Box.py" = compiledSource Evm.boxText := by
  rw [sourceAt, textAt_box hnames h]

end ContractKit.Samples

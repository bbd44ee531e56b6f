import ContractKit.Proofs.Data.Assoc
import ContractKit.Proofs.Workspace.Path
import ContractKit.Workspace.Tree

/-!
# What operations do to the files of a workspace

Operations on a tree put nodes at places.  None of them makes a file of a directory or a directory
of a file, so a path that leads to a place leads there ever after.
-/

namespace ContractKit

variable {content : List UInt8}

def Node.isDirectory : Node → Bool
  | .file _ _ => false
  | .directory => true

theorem Node.eq_directory {node : Node} (h : node.isDirectory = true) : node = .directory := by
  cases node with
  | file content mode => simp [isDirectory] at h
  | directory => rfl

namespace Tree

variable {t t' t'' : Tree} {p q r d : Place} {node : Node} {path : Path} {name : String}

/-! ## Nodes -/

@[simp] theorem node?_nil (t : Tree) : t.node? [] = some .directory := rfl

theorem node?_of_ne (t : Tree) (h : p ≠ []) : t.node? p = Assoc.get? p t.nodes := by
  rw [node?, if_neg (by simpa using h)]

theorem node?_setNode_self (t : Tree) (h : p ≠ []) (node : Node) :
    (t.setNode p node).node? p = some node := by
  rw [node?_of_ne _ h]
  exact Assoc.get?_set_self p node t.nodes

theorem node?_setNode_of_ne (t : Tree) (h : q ≠ p) (node : Node) :
    (t.setNode p node).node? q = t.node? q := by
  by_cases hq : q = []
  · rw [hq, node?_nil, node?_nil]
  · rw [node?_of_ne _ hq, node?_of_ne _ hq]
    exact Assoc.get?_set_of_ne h node t.nodes

theorem ne_nil_of_node? (h : t.node? p ≠ some .directory) : p ≠ [] := by
  rintro rfl
  exact h (node?_nil t)

/-! ## Walking -/

/-- A walk along two paths, one after the other. -/
theorem walk_append (t : Tree) (p : Place) (front rest : List String) :
    t.walk p (front ++ rest) = t.walk p front >>= fun q => t.walk q rest := by
  induction front generalizing p with
  | nil => rfl
  | cons part front ih =>
    simp only [List.cons_append, walk]
    split
    · split
      · rfl
      · split
        · exact ih _
        · exact ih _
    · rfl
    · rfl

theorem walk_name (hp : t.node? p = some .directory)
    (hlength : (Text.utf8 name).length ≤ longestName) (hname : name ≠ "..") :
    t.walk p [name] = .ok (p ++ [name]) := by
  simp [walk, hp, Nat.not_lt.mpr hlength, hname]

/-- A walk goes through directories only, so it goes the same way if these are still there. -/
theorem walk_mono (h : ∀ p, t.node? p = some .directory → t'.node? p = some .directory)
    {parts : List String} (hwalk : t.walk p parts = .ok q) : t'.walk p parts = .ok q := by
  induction parts generalizing p with
  | nil => exact hwalk
  | cons part rest ih =>
    simp only [walk] at hwalk ⊢
    split at hwalk
    case h_1 hp =>
      rw [h p hp]
      split at hwalk
      · simp at hwalk
      case isFalse hlength =>
        simp only [if_neg hlength]
        split at hwalk
        case isTrue hpart =>
          rw [if_pos hpart]
          exact ih hwalk
        case isFalse hpart =>
          rw [if_neg hpart]
          exact ih hwalk
    · simp at hwalk
    · simp at hwalk

theorem place_of_relative (h : path.absolute = false) :
    t.place path = t.walk t.workingDirectory path.parts := by
  rw [place, h]
  rfl

theorem relative_of_place (h : t.place path = .ok q) : path.absolute = false := by
  cases habsolute : path.absolute with
  | false => rfl
  | true => simp [place, habsolute] at h

/-- Names that are short enough are looked for. -/
theorem walk_of_short {parts : List String}
    (h : ∀ part ∈ parts, (Text.utf8 part).length ≤ longestName) :
    t.walk p parts ≠ .error .nameTooLong := by
  induction parts generalizing p with
  | nil => simp [walk]
  | cons part rest ih =>
    have hpart : ¬ longestName < (Text.utf8 part).length :=
      Nat.not_lt.mpr (h part List.mem_cons_self)
    have hrest : ∀ part ∈ rest, (Text.utf8 part).length ≤ longestName :=
      fun part hmem => h part (List.mem_cons_of_mem _ hmem)
    rw [walk]
    split
    · rw [if_neg hpart]
      split_ifs
      · exact ih hrest
      · exact ih hrest
    · simp
    · simp

theorem exists?_of_short (h : ∀ part ∈ path.parts, (Text.utf8 part).length ≤ longestName) :
    ∃ there, t.exists? path = .ok there := by
  unfold exists?
  split
  · exact ⟨_, rfl⟩
  case h_2 hplace =>
    unfold place at hplace
    split_ifs at hplace
    · simp at hplace
    · exact absurd hplace (walk_of_short h)
  · exact ⟨_, rfl⟩

/-! ## Changes -/

/-- What has changed from one tree to another: nodes are of the same kind as before, and each is
what it was or a node that was put at its place. -/
structure Changes (put : Place → Node → Prop) (t t' : Tree) : Prop where
  workingDirectory : t'.workingDirectory = t.workingDirectory
  kind : ∀ p node, t.node? p = some node →
    ∃ node', t'.node? p = some node' ∧ node'.isDirectory = node.isDirectory
  node : ∀ p, t'.node? p = t.node? p ∨ ∃ node, put p node ∧ t'.node? p = some node

namespace Changes

variable {put put' : Place → Node → Prop}

theorem refl (put : Place → Node → Prop) (t : Tree) : Changes put t t :=
  ⟨rfl, fun _ node h => ⟨node, h, rfl⟩, fun _ => .inl rfl⟩

theorem mono (h : Changes put t t') (hput : ∀ p node, put p node → put' p node) :
    Changes put' t t' := by
  refine ⟨h.workingDirectory, h.kind, fun p => ?_⟩
  rcases h.node p with hsame | ⟨node, hnode, hp⟩
  · exact .inl hsame
  · exact .inr ⟨node, hput p node hnode, hp⟩

theorem trans (h : Changes put t t') (h' : Changes put t' t'') : Changes put t t'' := by
  refine ⟨h'.workingDirectory.trans h.workingDirectory, ?_, fun p => ?_⟩
  · intro p node hp
    obtain ⟨node', hp', hkind⟩ := h.kind p node hp
    obtain ⟨node'', hp'', hkind'⟩ := h'.kind p node' hp'
    exact ⟨node'', hp'', hkind'.trans hkind⟩
  · rcases h'.node p with hsame | hput
    · rcases h.node p with hsame' | ⟨node, hnode, hp⟩
      · exact .inl (hsame.trans hsame')
      · exact .inr ⟨node, hnode, hsame.trans hp⟩
    · exact .inr hput

theorem directory (h : Changes put t t') (hp : t.node? p = some .directory) :
    t'.node? p = some .directory := by
  obtain ⟨node, hnode, hkind⟩ := h.kind p _ hp
  rw [hnode, Node.eq_directory hkind]

theorem place (h : Changes put t t') (hplace : t.place path = .ok q) :
    t'.place path = .ok q := by
  have hrelative := relative_of_place hplace
  rw [place_of_relative hrelative] at hplace ⊢
  rw [h.workingDirectory]
  exact walk_mono (fun _ => h.directory) hplace

/-- A place where nothing was put is as before. -/
theorem same (h : Changes put t t') (hput : ∀ node, ¬ put p node) : t'.node? p = t.node? p := by
  rcases h.node p with hsame | ⟨node, hnode, -⟩
  · exact hsame
  · exact absurd hnode (hput node)

/-- A file is as before if nothing but a directory may have been put at its place. -/
theorem file_iff (h : Changes put t t') (hput : ∀ node, put p node → node = .directory)
    (content : List UInt8) (mode : Nat) :
    t'.node? p = some (.file content mode) ↔ t.node? p = some (.file content mode) := by
  rcases h.node p with hsame | ⟨node, hnode, hp⟩
  · rw [hsame]
  · obtain rfl := hput node hnode
    rw [hp]
    constructor
    · simp
    · intro hfile
      obtain ⟨node', hp', hkind⟩ := h.kind p _ hfile
      rw [hp] at hp'
      obtain rfl := Option.some.inj hp'
      simp [Node.isDirectory] at hkind

end Changes

/-- A node is put at a place where none of the other kind is. -/
theorem changes_setNode {put : Place → Node → Prop} (hne : p ≠ [])
    (hkind : ∀ old, t.node? p = some old → node.isDirectory = old.isDirectory)
    (hput : put p node) : Changes put t (t.setNode p node) := by
  refine ⟨rfl, ?_, ?_⟩
  · intro q old hold
    by_cases hq : q = p
    · rw [hq] at hold ⊢
      exact ⟨node, node?_setNode_self t hne node, hkind old hold⟩
    · exact ⟨old, (node?_setNode_of_ne t hq node).trans hold, rfl⟩
  · intro q
    by_cases hq : q = p
    · rw [hq]
      exact .inr ⟨node, hput, node?_setNode_self t hne node⟩
    · exact .inl (node?_setNode_of_ne t hq node)

/-! ## Operations -/

theorem write_eq_ok (h : t.write path content = .ok t') :
    ∃ p mode, t.place path = .ok p ∧ t.node? p ≠ some .directory ∧
      t' = t.setNode p (.file content mode) := by
  unfold write at h
  cases hplace : t.place path with
  | error fault => simp [hplace, bind, Except.bind] at h
  | ok p =>
    simp only [hplace, bind, Except.bind] at h
    cases hnode : t.node? p with
    | none =>
      simp only [hnode, Except.ok.injEq] at h
      exact ⟨p, newFileMode, rfl, by simp [hnode], h.symm⟩
    | some node =>
      cases node with
      | directory => simp [hnode] at h
      | file old mode =>
        simp only [hnode, Except.ok.injEq] at h
        exact ⟨p, mode, rfl, by simp [hnode], h.symm⟩

theorem makeDirectory_eq_ok (h : t.makeDirectory path = .ok t') :
    ∃ p, t.place path = .ok p ∧ (t.node? p = some .directory ∧ t' = t ∨
      t.node? p = none ∧ t' = t.setNode p .directory) := by
  unfold makeDirectory at h
  cases hplace : t.place path with
  | error fault => simp [hplace, bind, Except.bind] at h
  | ok p =>
    simp only [hplace, bind, Except.bind] at h
    cases hnode : t.node? p with
    | none =>
      simp only [hnode, Except.ok.injEq] at h
      exact ⟨p, rfl, .inr ⟨hnode, h.symm⟩⟩
    | some node =>
      cases node with
      | directory =>
        simp only [hnode, Except.ok.injEq] at h
        exact ⟨p, rfl, .inl ⟨hnode, h.symm⟩⟩
      | file old mode => simp [hnode] at h

theorem changes_write (h : t.write path content = .ok t') :
    Changes (fun p node => t.place path = .ok p ∧ ∃ mode, node = .file content mode) t t' := by
  obtain ⟨p, mode, hplace, hnode, rfl⟩ := write_eq_ok h
  refine changes_setNode (ne_nil_of_node? hnode) ?_ ⟨hplace, mode, rfl⟩
  intro old hold
  cases old with
  | file content mode => rfl
  | directory => exact absurd hold hnode

theorem changes_makeDirectory (h : t.makeDirectory path = .ok t') :
    Changes (fun p node => t.place path = .ok p ∧ node = .directory) t t' := by
  obtain ⟨p, hplace, ⟨-, rfl⟩ | ⟨hnode, rfl⟩⟩ := makeDirectory_eq_ok h
  · exact .refl _ _
  · have hne : t.node? p ≠ some .directory := by simp [hnode]
    refine changes_setNode (ne_nil_of_node? hne) ?_ ⟨hplace, rfl⟩
    intro old hold
    simp [hnode] at hold

/-- After a directory was made its path leads to a directory. -/
theorem directory_of_makeDirectory (h : t.makeDirectory path = .ok t') :
    ∃ p, t.place path = .ok p ∧ t'.node? p = some .directory := by
  obtain ⟨p, hplace, ⟨hnode, rfl⟩ | ⟨hnode, rfl⟩⟩ := makeDirectory_eq_ok h
  · exact ⟨p, hplace, hnode⟩
  · have hne : t.node? p ≠ some .directory := by simp [hnode]
    exact ⟨p, hplace, node?_setNode_self t (ne_nil_of_node? hne) .directory⟩

/-- Reading gives the bytes of the file at a place. -/
theorem read_eq_ok :
    t.read path = .ok content ↔
      ∃ p mode, t.place path = .ok p ∧ t.node? p = some (.file content mode) := by
  unfold read
  cases hplace : t.place path with
  | error fault => simp [bind, Except.bind]
  | ok p =>
    simp only [bind, Except.bind, Except.ok.injEq, exists_and_left, exists_eq_left']
    cases hnode : t.node? p with
    | none => simp
    | some node => cases node <;> simp

/-- A file can be written where there is no directory. -/
theorem exists_write (hplace : t.place path = .ok p) (hnode : t.node? p ≠ some .directory)
    (content : List UInt8) : ∃ t', t.write path content = .ok t' := by
  simp only [write, hplace, bind, Except.bind]
  split
  · exact ⟨_, rfl⟩
  case h_2 hdirectory => exact absurd hdirectory hnode
  · exact ⟨_, rfl⟩

/-- A file is read as it was written. -/
theorem read_of_write (h : t.write path content = .ok t') : t'.read path = .ok content := by
  have hchanges := changes_write h
  obtain ⟨p, mode, hplace, hnode, rfl⟩ := write_eq_ok h
  exact read_eq_ok.mpr
    ⟨p, mode, hchanges.place hplace, node?_setNode_self t (ne_nil_of_node? hnode) _⟩

/-- A path leads to a place where a file is or can be. -/
def CanWrite (t : Tree) (path : Path) : Prop :=
  ∃ p, t.place path = .ok p ∧ t.node? p ≠ some .directory

theorem exists_write_iff : (∃ t', t.write path content = .ok t') ↔ t.CanWrite path := by
  constructor
  · rintro ⟨t', h⟩
    obtain ⟨p, mode, hplace, hnode, -⟩ := write_eq_ok h
    exact ⟨p, hplace, hnode⟩
  · rintro ⟨p, hplace, hnode⟩
    exact exists_write hplace hnode content

theorem canWrite_of_read (h : t.read path = .ok content) : t.CanWrite path := by
  obtain ⟨p, mode, hplace, hnode⟩ := read_eq_ok.mp h
  exact ⟨p, hplace, by simp [hnode]⟩

theorem exists?_of_read (h : t.read path = .ok content) : t.exists? path = .ok true := by
  obtain ⟨p, mode, hplace, hnode⟩ := read_eq_ok.mp h
  simp [exists?, hplace, hnode]

/-- Setting the permissions of a file leaves its bytes. -/
theorem exists_setMode (h : t.read path = .ok content) (mode : Nat) :
    ∃ t', t.setMode path mode = .ok t' ∧ t'.read path = .ok content := by
  obtain ⟨p, old, hplace, hnode⟩ := read_eq_ok.mp h
  have hfile : t.node? p ≠ some .directory := by simp [hnode]
  have hne : p ≠ [] := ne_nil_of_node? hfile
  refine ⟨t.setNode p (.file content mode), by simp [setMode, hplace, hnode, bind, Except.bind], ?_⟩
  have hchanges : Changes (fun _ _ => True) t (t.setNode p (.file content mode)) :=
    changes_setNode hne (fun node hold => by rw [Option.some.inj (hold.symm.trans hnode)]; rfl)
      trivial
  exact read_eq_ok.mpr ⟨p, mode, hchanges.place hplace, node?_setNode_self t hne _⟩

/-! ## Making directories -/

/-- The paths above a path, and itself, from the top. -/
def ancestors (path : Path) : List Path :=
  (List.range path.parts.length).map fun count => { path with parts := path.parts.take (count + 1) }

theorem makeDirectories_eq (t : Tree) (path : Path) :
    t.makeDirectories path =
      if t.place path = .error .noEntry then (ancestors path).foldlM makeDirectory t
      else t.makeDirectory path := by
  unfold makeDirectories ancestors
  split
  case h_1 hplace => rw [if_pos hplace, List.foldlM_map]
  case h_2 hplace => rw [if_neg hplace]

theorem foldlM_makeDirectory_cons {rest : List Path} :
    (path :: rest).foldlM makeDirectory t = .ok t' ↔
      ∃ t₁, t.makeDirectory path = .ok t₁ ∧ rest.foldlM makeDirectory t₁ = .ok t' := by
  rw [List.foldlM_cons]
  cases t.makeDirectory path with
  | error fault => simp [bind, Except.bind]
  | ok t₁ => simp [bind, Except.bind]

theorem eq_ancestor {path above : Path} (h : above ∈ ancestors path) :
    ∃ count, above = { path with parts := path.parts.take (count + 1) } := by
  obtain ⟨count, -, rfl⟩ := List.mem_map.mp h
  exact ⟨count, rfl⟩

theorem ancestors_eq (h : path.parts ≠ []) :
    ∃ above, ancestors path = above ++ [path] := by
  obtain ⟨n, hn⟩ := Nat.exists_eq_add_one_of_ne_zero
    (show path.parts.length ≠ 0 by simpa using h)
  refine ⟨(List.range n).map fun count => { path with parts := path.parts.take (count + 1) }, ?_⟩
  have hall : path.parts.take (n + 1) = path.parts := by rw [← hn, List.take_length]
  rw [ancestors, hn, List.range_succ, List.map_append, List.map_singleton, hall]

/-- A walk leads through names that it starts with or that it is given. -/
theorem names_of_walk {P : String → Prop} {parts : List String} (h : t.walk p parts = .ok q)
    (hp : ∀ name ∈ p, P name) (hparts : ∀ part ∈ parts, P part) : ∀ name ∈ q, P name := by
  induction parts generalizing p with
  | nil =>
    obtain rfl : p = q := Except.ok.inj h
    exact hp
  | cons part rest ih =>
    have hrest : ∀ part ∈ rest, P part :=
      fun part hpart => hparts part (List.mem_cons_of_mem _ hpart)
    simp only [walk] at h
    split at h
    · split at h
      · simp at h
      · split at h
        · exact ih h (fun name hname => hp name (List.dropLast_subset p hname)) hrest
        · refine ih h (fun name hname => ?_) hrest
          rcases List.mem_append.mp hname with hname | hname
          · exact hp name hname
          · rw [List.mem_singleton.mp hname]
            exact hparts part List.mem_cons_self
    · simp at h
    · simp at h

/-- Directories that are made at paths of such names. -/
theorem changes_foldlM_makeDirectory {P : String → Prop} {paths : List Path}
    (h : paths.foldlM makeDirectory t = .ok t') (hp : ∀ name ∈ t.workingDirectory, P name)
    (hpaths : ∀ path ∈ paths, ∀ part ∈ path.parts, P part) :
    Changes (fun p node => node = .directory ∧ ∀ name ∈ p, P name) t t' := by
  induction paths generalizing t with
  | nil =>
    obtain rfl : t = t' := Except.ok.inj h
    exact .refl _ _
  | cons path rest ih =>
    obtain ⟨t₁, hfirst, hrest⟩ := foldlM_makeDirectory_cons.mp h
    have hchanges := changes_makeDirectory hfirst
    refine (hchanges.mono ?_).trans (ih hrest ?_ ?_)
    · rintro p node ⟨hplace, hnode⟩
      rw [place_of_relative (relative_of_place hplace)] at hplace
      exact ⟨hnode, names_of_walk hplace hp (hpaths path List.mem_cons_self)⟩
    · rw [hchanges.workingDirectory]
      exact hp
    · exact fun path hpath => hpaths path (List.mem_cons_of_mem _ hpath)

/-- Making directories makes nothing else, and gives them names of the path. -/
theorem changes_makeDirectories {P : String → Prop}
    (h : t.makeDirectories path = .ok t') (hp : ∀ name ∈ t.workingDirectory, P name)
    (hpath : ∀ part ∈ path.parts, P part) :
    Changes (fun p node => node = .directory ∧ ∀ name ∈ p, P name) t t' := by
  rw [makeDirectories_eq] at h
  split at h
  · refine changes_foldlM_makeDirectory h hp fun above habove => ?_
    obtain ⟨count, rfl⟩ := eq_ancestor habove
    exact fun part hpart => hpath part (List.mem_of_mem_take hpart)
  · have hsingle : [path].foldlM makeDirectory t = .ok t' :=
      foldlM_makeDirectory_cons.mpr ⟨t', h, rfl⟩
    exact changes_foldlM_makeDirectory hsingle hp (by simpa using hpath)

/-- After directories were made along a relative path it leads to a directory. -/
theorem directory_of_makeDirectories (h : t.makeDirectories path = .ok t')
    (hrelative : path.absolute = false) :
    ∃ p, t'.place path = .ok p ∧ t'.node? p = some .directory := by
  have hlast : ∀ t₁ : Tree, t₁.makeDirectory path = .ok t' →
      ∃ p, t'.place path = .ok p ∧ t'.node? p = some .directory := by
    intro t₁ h₁
    obtain ⟨p, hplace, hnode⟩ := directory_of_makeDirectory h₁
    exact ⟨p, (changes_makeDirectory h₁).place hplace, hnode⟩
  rw [makeDirectories_eq] at h
  split at h
  case isTrue hmissing =>
    have hparts : path.parts ≠ [] := by
      intro hnil
      rw [place_of_relative hrelative, hnil] at hmissing
      simp [walk] at hmissing
    obtain ⟨above, habove⟩ := ancestors_eq hparts
    rw [habove, List.foldlM_append] at h
    cases hfront : above.foldlM makeDirectory t with
    | error fault => simp [hfront, bind, Except.bind] at h
    | ok t₁ =>
      rw [hfront] at h
      obtain ⟨t₂, h₂, hnil⟩ := foldlM_makeDirectory_cons.mp h
      obtain rfl : t₂ = t' := Except.ok.inj hnil
      exact hlast t₁ h₂
  case isFalse => exact hlast t h

/-! ## Names -/

/-- The ends of the places below a place, in the order of the nodes. -/
def namesBelow (t : Tree) (p : Place) : List String :=
  t.nodes.filterMap fun entry =>
    if entry.1.dropLast == p && !entry.1.isEmpty then entry.1.getLast? else none

theorem names_eq (hplace : t.place path = .ok p) (hp : t.node? p = some .directory) :
    t.names path = (t.namesBelow p).mergeSort fun a b => a ≤ b := by
  simp only [names, hplace, hp]
  rfl

theorem mem_namesBelow {name : String} :
    name ∈ t.namesBelow p ↔ (t.node? (p ++ [name])).isSome = true := by
  rw [node?_of_ne t (by simp), namesBelow, List.mem_filterMap]
  change _ ↔ Assoc.has (p ++ [name]) t.nodes = true
  rw [Assoc.has_iff_mem_keys, Assoc.keys, List.mem_map]
  refine exists_congr fun entry => and_congr_right fun _ => ?_
  constructor
  · intro h
    split at h
    case isTrue hbelow =>
      simp only [Bool.and_eq_true, beq_iff_eq] at hbelow
      rw [← hbelow.1]
      exact (List.dropLast_append_getLast? name h).symm
    · simp at h
  · intro h
    simp [h]

/-- The names in a directory are the ends of the places below it. -/
theorem mem_names {name : String} :
    name ∈ t.names path ↔ ∃ p, t.place path = .ok p ∧ t.node? p = some .directory ∧
      (t.node? (p ++ [name])).isSome = true := by
  constructor
  · intro h
    cases hplace : t.place path with
    | error fault => simp [names, hplace] at h
    | ok p =>
      by_cases hp : t.node? p = some .directory
      · rw [names_eq hplace hp, List.mem_mergeSort, mem_namesBelow] at h
        exact ⟨p, rfl, hp, h⟩
      · simp [names, hplace, hp] at h
  · rintro ⟨p, hplace, hp, hname⟩
    rw [names_eq hplace hp, List.mem_mergeSort]
    exact mem_namesBelow.mpr hname

/-! ## Trees with proper names -/

/-- Names in the tree have no slashes. -/
structure Proper (t : Tree) : Prop where
  names : ∀ p node, t.node? p = some node → ∀ name ∈ p, '/' ∉ name.toList
  workingDirectory : ∀ name ∈ t.workingDirectory, '/' ∉ name.toList

theorem Proper.of_mem_names (h : t.Proper) {name : String}
    (hname : name ∈ t.names path) : '/' ∉ name.toList := by
  obtain ⟨p, -, -, hnode⟩ := mem_names.mp hname
  obtain ⟨node, hnode⟩ := Option.isSome_iff_exists.mp hnode
  exact h.names _ node hnode name (by simp)

theorem Proper.makeDirectories (h : t.Proper) (hpath : path.Named)
    (hmake : t.makeDirectories path = .ok t') : t'.Proper := by
  have hchanges := changes_makeDirectories (P := fun name => '/' ∉ name.toList) hmake
    h.workingDirectory fun part hpart => (hpath part hpart).noSlash
  refine ⟨fun p node hnode => ?_, by rw [hchanges.workingDirectory]; exact h.workingDirectory⟩
  rcases hchanges.node p with hsame | ⟨_, hput, -⟩
  · exact h.names p node (hsame ▸ hnode)
  · exact hput.2

/-- A name below a path leads on from where the path leads. -/
theorem place_join (hplace : t.place path = .ok p) {name : String}
    (hname : Path.IsName name) : t.place (path.join name) = t.walk p [name] := by
  have hrelative := relative_of_place hplace
  rw [place_of_relative hrelative] at hplace
  have hbelow : t.place ⟨path.absolute, path.parts ++ [name]⟩ =
      t.walk t.workingDirectory (path.parts ++ [name]) := place_of_relative hrelative
  rw [Path.join_name path hname, hbelow, walk_append, hplace]
  rfl

/-! ## Directories and their entries -/

/-- The path leads to a directory at the place. -/
structure HasDirectory (t : Tree) (path : Path) (d : Place) : Prop where
  place : t.place path = .ok d
  isDirectory : t.node? d = some .directory

theorem Changes.hasDirectory {put : Place → Node → Prop} (h : Changes put t t')
    (hd : t.HasDirectory path d) : t'.HasDirectory path d :=
  ⟨h.place hd.place, h.directory hd.isDirectory⟩

/-- An entry of a directory is found under its name, unless that is too long. -/
theorem place_entry (hd : t.HasDirectory path d) (hname : Path.IsEntry name) :
    t.place (path.join name) =
      if longestName < (Text.utf8 name).length then .error .nameTooLong else .ok (d ++ [name]) := by
  rw [place_join hd.place hname.toIsName]
  simp [walk, hd.isDirectory, hname.ne_up]

theorem eq_of_place_entry (hd : t.HasDirectory path d) (hname : Path.IsEntry name)
    (h : t.place (path.join name) = .ok p) :
    p = d ++ [name] ∧ (Text.utf8 name).length ≤ longestName := by
  rw [place_entry hd hname] at h
  split at h
  · simp at h
  case isFalse hlength => exact ⟨(Except.ok.inj h).symm, Nat.not_lt.mp hlength⟩

theorem write_entry (hd : t.HasDirectory path d) (hname : Path.IsEntry name)
    (h : t.write (path.join name) content = .ok t') :
    (Text.utf8 name).length ≤ longestName ∧
      ∃ mode, t' = t.setNode (d ++ [name]) (.file content mode) := by
  obtain ⟨p, mode, hplace, -, rfl⟩ := write_eq_ok h
  obtain ⟨rfl, hlength⟩ := eq_of_place_entry hd hname hplace
  exact ⟨hlength, mode, rfl⟩

/-- A file can be written in a directory if its name is not too long and no directory is there. -/
theorem write_entry_ok (hd : t.HasDirectory path d) (hname : Path.IsEntry name)
    (hlength : (Text.utf8 name).length ≤ longestName)
    (hnode : t.node? (d ++ [name]) ≠ some .directory)
    (content : List UInt8) : ∃ t', t.write (path.join name) content = .ok t' := by
  have hplace := place_entry hd hname
  rw [if_neg (Nat.not_lt.mpr hlength)] at hplace
  exact exists_write hplace hnode content

end Tree

end ContractKit

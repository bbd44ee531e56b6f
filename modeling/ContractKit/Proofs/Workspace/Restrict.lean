import ContractKit.Proofs.Workspace.Tree

/-!
# Parts of a tree

A part of a tree has nothing but what is at the places to keep.  If all directories are kept, paths
lead to the same places in it, directories are made in it as in the whole tree, and of the names in
a directory those are listed that are kept.
-/

namespace ContractKit.Tree

variable {t t' : Tree} {keep : Place → Bool} {p q d : Place} {path : Path} {name : String}

/-- The tree with nothing but what is at the places to keep. -/
def restrict (t : Tree) (keep : Place → Bool) : Tree :=
  { t with nodes := t.nodes.filter fun entry => keep entry.1 }

def KeepsDirectories (t : Tree) (keep : Place → Bool) : Prop :=
  ∀ p, t.node? p = some .directory → keep p = true

theorem KeepsDirectories.of_changes {put : Place → Node → Prop} (h : t'.KeepsDirectories keep)
    (hchanges : Changes put t t') : t.KeepsDirectories keep :=
  fun p hp => h p (hchanges.directory hp)

section Restrict

variable (h : t.KeepsDirectories keep)

include h

theorem node?_restrict (p : Place) :
    (t.restrict keep).node? p = if keep p then t.node? p else none := by
  by_cases hp : p = []
  · rw [hp, if_pos (h [] (node?_nil t)), node?_nil, node?_nil]
  · rw [node?_of_ne _ hp, node?_of_ne _ hp]
    exact Assoc.get?_filter keep p t.nodes

theorem directory_restrict_iff :
    (t.restrict keep).node? p = some .directory ↔ t.node? p = some .directory := by
  rw [node?_restrict h]
  constructor
  · intro hp
    split at hp
    · exact hp
    · simp at hp
  · intro hp
    rw [if_pos (h p hp), hp]

/-- A walk goes the same way, unless it meets a file. -/
theorem walk_restrict {parts : List String} (hwalk : t.walk p parts ≠ .error .notDirectory) :
    (t.restrict keep).walk p parts = t.walk p parts := by
  induction parts generalizing p with
  | nil => rfl
  | cons part rest ih =>
    simp only [walk] at hwalk ⊢
    cases hp : t.node? p with
    | none =>
      have hnone : (t.restrict keep).node? p = none := by simp [node?_restrict h, hp]
      rw [hnone]
    | some node =>
      cases node with
      | file content mode => simp [hp] at hwalk
      | directory =>
        simp only [hp] at hwalk
        simp only [(directory_restrict_iff h).mpr hp]
        split
        · rfl
        case isFalse hlength =>
          rw [if_neg hlength] at hwalk
          split
          case isTrue hup =>
            rw [if_pos hup] at hwalk
            exact ih hwalk
          case isFalse hup =>
            rw [if_neg hup] at hwalk
            exact ih hwalk

theorem place_restrict (hplace : t.place path ≠ .error .notDirectory) :
    (t.restrict keep).place path = t.place path := by
  cases habsolute : path.absolute with
  | true => simp [place, habsolute]
  | false =>
    rw [place_of_relative habsolute] at hplace ⊢
    rw [place_of_relative habsolute]
    exact walk_restrict h hplace

theorem HasDirectory.restrict (hd : t.HasDirectory path d) :
    (t.restrict keep).HasDirectory path d := by
  refine ⟨?_, (directory_restrict_iff h).mpr hd.isDirectory⟩
  rw [place_restrict h (by simp [hd.place]), hd.place]

end Restrict

theorem restrict_setNode (h : keep p = true) (t : Tree) (node : Node) :
    (t.setNode p node).restrict keep = (t.restrict keep).setNode p node := by
  rw [restrict, setNode, Assoc.filter_set h]
  rfl

/-- A directory is made if no directory is dropped. -/
theorem makeDirectory_restrict (h : t'.KeepsDirectories keep)
    (hmake : t.makeDirectory path = .ok t') :
    (t.restrict keep).makeDirectory path = .ok (t'.restrict keep) := by
  have hold := h.of_changes (changes_makeDirectory hmake)
  obtain ⟨p, hplace, hp⟩ := makeDirectory_eq_ok hmake
  have hplace' := place_restrict hold (show t.place path ≠ _ by simp [hplace])
  rw [makeDirectory, hplace', hplace]
  rcases hp with ⟨hp, rfl⟩ | ⟨hp, rfl⟩
  · simp only [bind, Except.bind, (directory_restrict_iff hold).mpr hp]
  · have hnone : (t.restrict keep).node? p = none := by simp [node?_restrict hold, hp]
    have hne : t.node? p ≠ some .directory := by simp [hp]
    have hkeep := h p (node?_setNode_self t (ne_nil_of_node? hne) .directory)
    simp only [bind, Except.bind, hnone, restrict_setNode hkeep]

theorem foldlM_makeDirectory_restrict (h : t'.KeepsDirectories keep) {paths : List Path}
    (hmake : paths.foldlM makeDirectory t = .ok t') :
    paths.foldlM makeDirectory (t.restrict keep) = .ok (t'.restrict keep) := by
  induction paths generalizing t with
  | nil =>
    obtain rfl : t = t' := Except.ok.inj hmake
    rfl
  | cons path rest ih =>
    obtain ⟨t₁, hfirst, hrest⟩ := foldlM_makeDirectory_cons.mp hmake
    have hchanges := changes_foldlM_makeDirectory (P := fun _ => True) hrest (by simp) (by simp)
    exact foldlM_makeDirectory_cons.mpr
      ⟨t₁.restrict keep, makeDirectory_restrict (h.of_changes hchanges) hfirst, ih hrest⟩

/-- Directories are made if no directory is dropped. -/
theorem makeDirectories_restrict (h : t'.KeepsDirectories keep)
    (hmake : t.makeDirectories path = .ok t') :
    (t.restrict keep).makeDirectories path = .ok (t'.restrict keep) := by
  have hold := h.of_changes
    (changes_makeDirectories (P := fun _ => True) hmake (by simp) (by simp))
  rw [makeDirectories_eq] at hmake ⊢
  by_cases hmissing : t.place path = .error .noEntry
  · rw [if_pos hmissing] at hmake
    rw [place_restrict hold (by simp [hmissing]), if_pos hmissing]
    exact foldlM_makeDirectory_restrict h hmake
  · rw [if_neg hmissing] at hmake
    obtain ⟨p, hplace, -⟩ := makeDirectory_eq_ok hmake
    rw [place_restrict hold (by simp [hplace]), if_neg hmissing]
    exact makeDirectory_restrict h hmake

theorem Proper.restrict (h : t.Proper) (hkeep : t.KeepsDirectories keep) :
    (t.restrict keep).Proper := by
  refine ⟨fun p node hp => ?_, h.workingDirectory⟩
  rw [node?_restrict hkeep] at hp
  split at hp
  · exact h.names p node hp
  · simp at hp

/-! ## Names -/

theorem namesBelow_restrict (t : Tree) (keep : Place → Bool) (p : Place) :
    (t.restrict keep).namesBelow p = (t.namesBelow p).filter fun name => keep (p ++ [name]) := by
  rw [namesBelow, namesBelow, restrict, List.filterMap_filter, List.filter_filterMap]
  refine List.filterMap_congr fun entry _ => ?_
  by_cases hbelow : (entry.1.dropLast == p && !entry.1.isEmpty) = true
  · rw [if_pos hbelow]
    simp only [Bool.and_eq_true, beq_iff_eq, Bool.not_eq_true', List.isEmpty_eq_false_iff] at hbelow
    obtain ⟨rfl, hne⟩ := hbelow
    have hplace : entry.1.dropLast ++ [entry.1.getLast hne] = entry.1 :=
      List.dropLast_append_getLast hne
    cases hkeep : keep entry.1 <;>
      simp [List.getLast?_eq_some_getLast hne, Option.filter_some, hplace, hkeep]
  · rw [if_neg hbelow]
    simp

theorem pairwise_names (names : List String) :
    (names.mergeSort fun a b => a ≤ b).Pairwise (· ≤ ·) := by
  have hsorted := @List.pairwise_mergeSort String (fun a b => decide (a ≤ b))
    (fun a b c hab hbc => by simpa using String.le_trans (by simpa using hab) (by simpa using hbc))
    (fun a b => by simpa using String.le_total a b) names
  simpa using hsorted

/-- Names of a kind that is kept are listed as before. -/
theorem filter_names_restrict {kind : String → Bool} (h : t.KeepsDirectories keep)
    (hd : t.HasDirectory path d) (hkind : ∀ name, kind name = true → keep (d ++ [name]) = true) :
    ((t.restrict keep).names path).filter kind = (t.names path).filter kind := by
  have hd' := hd.restrict h
  rw [names_eq hd.place hd.isDirectory, names_eq hd'.place hd'.isDirectory, namesBelow_restrict]
  -- Both lists are in order, and they have the same names.
  refine @List.Perm.eq_of_pairwise String (· ≤ ·) _ _ (fun _ _ _ _ => String.le_antisymm)
    ((pairwise_names _).filter _) ((pairwise_names _).filter _) ?_
  refine ((List.mergeSort_perm _ _).filter _).trans
    (.trans ?_ ((List.mergeSort_perm _ _).filter _).symm)
  rw [List.filter_filter]
  refine .of_eq (List.filter_congr fun name _ => ?_)
  cases hname : kind name
  · rfl
  · simp [hkind name hname]

end ContractKit.Tree

/-
# Compdb.Proofs.FileTree — what setting and removing a node leaves as it is

Setting a node changes what stands at its way and nothing else (`node?_set`), and likewise
removing one (`node?_remove`). A path leads through directories, so it leads to the same
place in every tree which has the directories of the first one (`KeepsDirectories`): files
may come, go and change their content.

A file can be moved exactly to the places (`IsPlace`), and is found there afterwards
(`IsPlace.find_of_rename`).
-/
import Compdb.FileTree

namespace Compdb.FileTree

set_option autoImplicit false

variable {t t' : FileTree} {way : Way}

@[simp] theorem root_set (t : FileTree) (way : Way) (node : Node) :
    (t.set way node).root = t.root := by
  unfold set
  split <;> rfl

@[simp] theorem root_remove (t : FileTree) (way : Way) : (t.remove way).root = t.root :=
  rfl

theorem node?_of_ne_nil (t : FileTree) (below : way ≠ []) :
    t.node? way = (t.nodes.find? fun pair => pair.1 == way).map Prod.snd := by
  cases way with
  | nil => exact absurd rfl below
  | cons part more => rfl

/-- Setting a node below the root changes what stands at its way only. -/
theorem node?_set (t : FileTree) (below : way ≠ []) (node : Node) (other : Way) :
    (t.set way node).node? other = if other = way then some node else t.node? other := by
  by_cases atRoot : other = []
  · subst atRoot
    rw [if_neg (Ne.symm below)]
    rfl
  rw [node?_of_ne_nil _ atRoot, node?_of_ne_nil _ atRoot, set]
  split
  · next present =>
    -- The way of every node stays, so the look-up finds the same place.
    have sameWay : ((fun pair : Way × Node => pair.1 == other) ∘
        fun pair => if pair.1 == way then (way, node) else pair) = fun pair => pair.1 == other := by
      funext pair
      by_cases same : pair.1 = way <;> simp [same]
    rw [List.find?_map, sameWay]
    cases found : t.nodes.find? fun pair => pair.1 == other with
    | none =>
        have absent : other ≠ way := by
          rintro rfl
          rw [List.find?_eq_none] at found
          obtain ⟨pair, member, same⟩ := List.any_eq_true.mp present
          exact found pair member same
        simp [absent]
    | some pair =>
        have atOther : pair.1 = other := by simpa using List.find?_some found
        by_cases same : other = way <;> simp [atOther, same]
  · next absent =>
    rw [List.find?_append]
    split
    · next same =>
      subst same
      have none : (t.nodes.find? fun pair => pair.1 == other) = none := by
        rw [List.find?_eq_none]
        intro pair member same
        exact absent (List.any_eq_true.mpr ⟨pair, member, same⟩)
      simp [none]
    · next different =>
      have : (way == other) = false := by simpa using Ne.symm different
      simp [this]

/-- Removing a node below the root changes what stands at its way only. -/
theorem node?_remove (t : FileTree) (below : way ≠ []) (other : Way) :
    (t.remove way).node? other = if other = way then none else t.node? other := by
  by_cases atRoot : other = []
  · subst atRoot
    rw [if_neg (Ne.symm below)]
    rfl
  rw [node?_of_ne_nil _ atRoot, node?_of_ne_nil _ atRoot, remove, List.find?_filter]
  split
  · next same =>
    subst same
    simp
  · next different =>
    congr 2
    funext pair
    by_cases same : pair.1 = other <;> simp [same, different]

theorem ne_of_node?_eq_none (below : way ≠ []) (free : t.node? way = none) :
    ∀ pair ∈ t.nodes, pair.1 ≠ way := by
  rw [node?_of_ne_nil _ below, Option.map_eq_none_iff, List.find?_eq_none] at free
  intro pair member
  simpa using free pair member

section Free

variable (others : ∀ pair ∈ t.nodes, pair.1 ≠ way) (first second : Node)
include others

theorem set_of_free : t.set way first = { t with nodes := t.nodes ++ [(way, first)] } := by
  have absent : ¬ t.nodes.any (fun pair => pair.1 == way) := by
    intro present
    obtain ⟨pair, member, same⟩ := List.any_eq_true.mp present
    exact others pair member (by simpa using same)
  rw [set, if_neg absent]

/-- What is set last stands there. -/
theorem set_set_of_free : (t.set way first).set way second = t.set way second := by
  have kept : t.nodes.map (fun pair => if pair.1 == way then (way, second) else pair) =
      t.nodes :=
    calc t.nodes.map (fun pair => if pair.1 == way then (way, second) else pair)
      _ = t.nodes.map id := by
        apply List.map_congr_left
        intro pair member
        simp [others pair member]
      _ = t.nodes := List.map_id _
  rw [set_of_free others, set_of_free others, set, if_pos (by simp), List.map_append, kept]
  simp

/-- What was set where nothing stood is removed without a trace. -/
theorem remove_set_of_free : (t.set way first).remove way = t := by
  have kept : t.nodes.filter (fun pair => pair.1 != way) = t.nodes := by
    rw [List.filter_eq_self]
    intro pair member
    simpa using others pair member
  rw [remove, set_of_free others, List.filter_append, kept]
  simp

end Free

/-- The path names a place in a directory, and no directory stands there: a file can. -/
structure IsPlace (t : FileTree) (workingDirectory : Way) (path : Text) (directory : Way)
    (name : Text) : Prop where
  leads : t.resolve workingDirectory path = .ok (.named directory name false)
  noDirectory : t.node? (directory ++ [name]) ≠ some .directory

section Places

variable {workingDirectory directory : Way} {path name : Text} {content : List UInt8}

/-- A path finds the file at the place which it names. -/
theorem find_of_resolve
    (leads : t.resolve workingDirectory path = .ok (.named directory name false))
    (stands : t.node? (directory ++ [name]) = some (.file content)) :
    t.find workingDirectory path = .ok (.file content) := by
  rw [find, leads]
  simp only [bind, Except.bind, stands, Bool.false_eq_true, if_false]

/-- A file can be moved to any place. -/
theorem IsPlace.rename {source : Way} (place : t.IsPlace workingDirectory path directory name)
    (file : t.node? source = some (.file content)) :
    t.rename source workingDirectory path =
      .ok ((t.remove source).set (directory ++ [name]) (.file content)) := by
  have free : (t.node? (directory ++ [name]) == some .directory) = false := by
    simpa using place.noDirectory
  rw [FileTree.rename]
  simp only [file, place.leads, bind, Except.bind, free, Bool.false_eq_true, if_false]

/-- Where a file was moved to is a place. -/
theorem isPlace_of_rename {source : Way} (moved : t.rename source workingDirectory path = .ok t') :
    ∃ directory name, t.IsPlace workingDirectory path directory name := by
  rw [rename] at moved
  split at moved
  · cases leads : t.resolve workingDirectory path with
    | error cause => simp [leads, bind, Except.bind] at moved
    | ok target =>
        cases target with
        | directory way => simp [leads, bind, Except.bind] at moved
        | named directory name hasSeparator =>
            simp only [leads, bind, Except.bind] at moved
            split at moved
            · cases moved
            · next noSeparator =>
              split at moved
              · cases moved
              · next free =>
                rw [Bool.not_eq_true] at noSeparator
                subst noSeparator
                exact ⟨directory, name, leads, by simpa using free⟩
  · cases moved
  · cases moved

end Places

/-- Both trees have the same root, and the second one has all directories of the first. -/
structure KeepsDirectories (t t' : FileTree) : Prop where
  root : t'.root = t.root
  directory : ∀ way, t.node? way = some .directory → t'.node? way = some .directory

namespace KeepsDirectories

theorem trans {t'' : FileTree} (first : KeepsDirectories t t')
    (second : KeepsDirectories t' t'') : KeepsDirectories t t'' := by
  refine ⟨second.root.trans first.root, ?_⟩
  intro way stands
  exact second.directory way (first.directory way stands)

/-- A file which is set where no directory stands. -/
theorem set (below : way ≠ []) (noDirectory : t.node? way ≠ some .directory)
    (content : List UInt8) : KeepsDirectories t (t.set way (.file content)) := by
  refine ⟨root_set .., fun other stands => ?_⟩
  have different : other ≠ way := by
    rintro rfl
    exact noDirectory stands
  rw [node?_set t below, if_neg different, stands]

/-- A file which is set takes no directory away from anywhere else. -/
theorem of_set (below : way ≠ []) (content : List UInt8) :
    KeepsDirectories (t.set way (.file content)) t := by
  refine ⟨(root_set ..).symm, fun other stands => ?_⟩
  rw [node?_set t below] at stands
  split at stands
  · cases stands
  · exact stands

theorem remove (below : way ≠ []) (noDirectory : t.node? way ≠ some .directory) :
    KeepsDirectories t (t.remove way) := by
  refine ⟨root_remove .., fun other stands => ?_⟩
  have different : other ≠ way := by
    rintro rfl
    exact noDirectory stands
  rw [node?_remove t below, if_neg different, stands]

/-- A walk which arrives somewhere went through directories only. -/
theorem walk (keeps : KeepsDirectories t t') {hasSeparator : Bool} {parts : List Text}
    {target : Target} (arrives : t.walk hasSeparator way parts = .ok target) :
    t'.walk hasSeparator way parts = .ok target := by
  induction parts generalizing way with
  | nil => exact arrives
  | cons part more ih =>
      rw [FileTree.walk] at arrives ⊢
      split at arrives
      · next dot =>
        rw [if_pos dot]
        exact ih arrives
      · next noDot =>
        rw [if_neg noDot]
        split at arrives
        · next up =>
          rw [if_pos up]
          split at arrives
          · cases arrives
          · next inside =>
            rw [if_neg inside]
            exact ih arrives
        · next down =>
          rw [if_neg down]
          split at arrives
          · next last =>
            rw [if_pos last]
            exact arrives
          · next notLast =>
            rw [if_neg notLast]
            cases stands : t.node? (way ++ [part]) with
            | none => simp [stands] at arrives
            | some node =>
                cases node with
                | file content => simp [stands] at arrives
                | directory =>
                    simp only [stands] at arrives
                    simp only [keeps.directory _ stands]
                    exact ih arrives

/-- A path which leads somewhere leads to the same place afterwards. -/
theorem resolve (keeps : KeepsDirectories t t') {workingDirectory : Way} {path : Text}
    {target : Target} (leads : t.resolve workingDirectory path = .ok target) :
    t'.resolve workingDirectory path = .ok target := by
  have below : t'.belowRoot path = t.belowRoot path := by
    rw [belowRoot, belowRoot, keeps.root]
  rw [FileTree.resolve] at leads ⊢
  rw [below]
  cases rest : t.belowRoot path with
  | some rest =>
      simp only [rest] at leads
      exact keeps.walk leads
  | none =>
      simp only [rest] at leads
      split at leads
      · cases leads
      · next relative =>
        simp only [relative, Bool.false_eq_true, if_false]
        cases stands : t.node? workingDirectory with
        | none => simp [stands] at leads
        | some node =>
            cases node with
            | file content => simp [stands] at leads
            | directory =>
                simp only [stands] at leads
                simp only [keeps.directory _ stands]
                exact keeps.walk leads

end KeepsDirectories

/-- A file which is moved to a place is found there. Its way leads through directories, none of
which was moved or replaced. -/
theorem IsPlace.find_of_rename {source workingDirectory directory : Way} {path name : Text}
    {content : List UInt8} (place : t.IsPlace workingDirectory path directory name)
    (below : source ≠ []) (file : t.node? source = some (.file content)) :
    ∃ after, t.rename source workingDirectory path = .ok after ∧
      after.find workingDirectory path = .ok (.file content) := by
  have toCleared : t.KeepsDirectories (t.remove source) :=
    .remove below (by rw [file]; simp)
  have clearedPlace : (t.remove source).node? (directory ++ [name]) ≠ some .directory := by
    rw [node?_remove t below]
    split
    · simp
    · exact place.noDirectory
  have toPlaced := KeepsDirectories.set (by simp) clearedPlace content
  refine ⟨_, place.rename file, ?_⟩
  apply find_of_resolve (toPlaced.resolve (toCleared.resolve place.leads))
  rw [node?_set _ (by simp), if_pos rfl]

end Compdb.FileTree

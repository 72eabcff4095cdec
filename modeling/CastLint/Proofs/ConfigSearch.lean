import CastLint.Config.Search
import CastLint.Proofs.FileTrees
import Mathlib.Data.List.Infix

/-! Where a configuration is found. The search goes up by dropping the last name of a path, and a
step to the parent counts as a name. So it visits the places to which the front parts of the path
lead, and in front of a step to the parent these need not be above the directory that it starts
from. -/

namespace CastLint
namespace Files

open ByteString (slash)

/-! ### Where names lead -/

/-- The place to which a name leads from a place, if that is no link. -/
def enter (place : Place) (name : ByteString) : Place :=
  if name = "." then place else if name = ".." then place.dropLast else place ++ [name]

/-- The place to which several names lead, one after another. -/
def reach (place : Place) (xs : List ByteString) : Place := xs.foldl enter place

section

variable {place above : Place} {xs : List ByteString}

@[simp]
theorem reach_nil (place : Place) : reach place [] = place := rfl

@[simp]
theorem reach_cons (place : Place) (name : ByteString) (xs : List ByteString) :
    reach place (name :: xs) = reach (enter place name) xs := rfl

theorem reach_append (place : Place) (xs ys : List ByteString) :
    reach place (xs ++ ys) = reach (reach place xs) ys := List.foldl_append

theorem reach_eq_append (h : ∀ name ∈ xs, name ≠ "." ∧ name ≠ "..") (place : Place) :
    reach place xs = place ++ xs := by
  induction xs generalizing place with
  | nil => simp
  | cons name xs ih =>
    obtain ⟨⟨hdot, hup⟩, hrest⟩ := List.forall_mem_cons.mp h
    rw [reach_cons, ih hrest, enter, if_neg hdot, if_neg hup, List.append_assoc,
      List.singleton_append]

theorem reach_filter_dot (place : Place) (xs : List ByteString) :
    reach place (xs.filter (· ≠ ByteString.ofString ".")) = reach place xs := by
  induction xs generalizing place with
  | nil => rfl
  | cons name xs ih =>
    by_cases hdot : name = "."
    · simpa [hdot, enter] using ih place
    · simpa [hdot] using ih (enter place name)

/-- Each name leads at most one place up or down, so names that lead from one place down to another
pass through all places in between. -/
theorem exists_prefix_reach (habove : place <+: above) (hbelow : above <+: reach place xs) :
    ∃ ys, ys <+: xs ∧ reach place ys = above := by
  induction xs using List.reverseRecOn with
  | nil => exact ⟨[], List.nil_prefix, habove.eq_of_length_le hbelow.length_le⟩
  | append_singleton xs name ih =>
    have hmore : above <+: reach place xs → ∃ ys, ys <+: xs ++ [name] ∧ reach place ys = above := by
      intro h
      obtain ⟨ys, hys, heq⟩ := ih h
      exact ⟨ys, hys.trans (List.prefix_append xs [name]), heq⟩
    have hlast : reach place (xs ++ [name]) = enter (reach place xs) name := reach_append ..
    rw [hlast, enter] at hbelow
    split at hbelow
    next => exact hmore hbelow
    next =>
      split at hbelow
      next => exact hmore (hbelow.trans (List.dropLast_prefix _))
      next hdot hup =>
        obtain heq | hshort := List.prefix_concat_iff.mp hbelow
        · refine ⟨xs ++ [name], List.prefix_rfl, ?_⟩
          rw [hlast, enter, if_neg hdot, if_neg hup, heq]
        · exact hmore hshort

end

namespace Entry

variable {root : Entry} {here place : Place} {path name : ByteString} {xs ys : List ByteString}

def IsDirectory (root : Entry) (place : Place) : Prop :=
  ∃ es, root.get? place = some (directory es)

theorem isDirectory_of_prefix {place' : Place} (h : root.IsDirectory place)
    (hfront : place' <+: place) : root.IsDirectory place' := by
  obtain ⟨rest, rfl⟩ := hfront
  obtain ⟨es, hget⟩ := h
  induction place' generalizing root with
  | nil =>
    cases rest with
    | nil => exact ⟨es, hget⟩
    | cons name rest =>
      obtain ⟨es', -, rfl, -⟩ := exists_entry hget
      exact ⟨es', rfl⟩
  | cons name place' ih =>
    obtain ⟨es', next, rfl, hnext, hrest⟩ := exists_entry hget
    obtain ⟨es'', hget'⟩ := ih hrest
    exact ⟨es'', by simpa [get?, hnext] using hget'⟩

/-- Names lead through directories only, from the first place to the last. -/
def Passes (root : Entry) (here : Place) (xs : List ByteString) : Prop :=
  ∀ ys, ys <+: xs → root.IsDirectory (reach here ys)

theorem passes_nil_iff : root.Passes here [] ↔ root.IsDirectory here := by
  simp [Passes]

theorem passes_cons_iff :
    root.Passes here (name :: xs) ↔ root.IsDirectory here ∧ root.Passes (enter here name) xs := by
  simp only [Passes, List.prefix_cons_iff]
  constructor
  · intro h
    exact ⟨h [] (Or.inl rfl), fun ys hys => h (name :: ys) (Or.inr ⟨ys, rfl, hys⟩)⟩
  · rintro ⟨hhere, hrest⟩ ys (rfl | ⟨ys, rfl, hys⟩)
    · exact hhere
    · exact hrest ys hys

theorem Passes.append (h : root.Passes here xs) (h' : root.Passes (reach here xs) ys) :
    root.Passes here (xs ++ ys) := by
  induction xs generalizing here with
  | nil => exact h'
  | cons name xs ih =>
    obtain ⟨hhere, hrest⟩ := passes_cons_iff.mp h
    exact passes_cons_iff.mpr ⟨hhere, ih hrest h'⟩

theorem Passes.of_prefix (h : root.Passes here ys) (hfront : xs <+: ys) : root.Passes here xs :=
  fun zs hzs => h zs (hzs.trans hfront)

theorem walkWith_of_passes {follow : Place → List ByteString → Except AccessError Place}
    (h : root.Passes here xs) :
    walkWith root follow here (xs ++ ys) = walkWith root follow (reach here xs) ys := by
  induction xs generalizing here with
  | nil => rfl
  | cons name xs ih =>
    obtain ⟨⟨es, hget⟩, hrest⟩ := passes_cons_iff.mp h
    rw [reach_cons, ← ih hrest, List.cons_append, walkWith, hget]
    dsimp only
    by_cases hdot : name = "."
    · simp only [hdot, enter, if_true]
    · by_cases hup : name = ".."
      · simp only [hup, enter, if_true]
        rfl
      · have henter : enter here name = here ++ [name] := by simp only [enter, hdot, hup, if_false]
        obtain ⟨es', hnext⟩ : root.IsDirectory (here ++ [name]) :=
          henter ▸ hrest [] List.nil_prefix
        rw [get?_append hget] at hnext
        obtain ⟨_, next, hes, hlookup, heq⟩ := exists_entry hnext
        obtain rfl := directory.inj hes
        obtain rfl : next = directory es' := by simpa [get?] using heq
        rw [if_neg hdot, if_neg hup, hlookup, henter]

theorem walk_of_passes (h : root.Passes here xs) (links : ℕ) :
    walk root links here (xs ++ ys) = walk root links (reach here xs) ys := by
  cases links <;> exact walkWith_of_passes h

theorem passes_of_walk (h : walk root 0 here xs = .ok place) (hplace : root.IsDirectory place) :
    root.Passes here xs ∧ reach here xs = place := by
  induction xs generalizing here with
  | nil =>
    obtain rfl : here = place := Except.ok.inj h
    exact ⟨passes_nil_iff.mpr hplace, rfl⟩
  | cons name xs ih =>
    obtain ⟨es, hhere, hcases⟩ := walkWith_cons_eq_ok_iff.mp h
    have hrest : walk root 0 (enter here name) xs = .ok place := by
      obtain ⟨rfl, hstay⟩ | ⟨rfl, hup⟩ | ⟨hdot, hup, _, -, ⟨-, hdown⟩ | ⟨_, -, hlink⟩⟩ := hcases
      · exact hstay
      · exact hup
      · rwa [enter, if_neg hdot, if_neg hup]
      · cases hlink
    obtain ⟨hpasses, hreach⟩ := ih hrest
    exact ⟨passes_cons_iff.mpr ⟨⟨es, hhere⟩, hpasses⟩, hreach⟩

end Entry

/-! ### Paths of names from the root -/

theorem notMem_of_mem_splitSlashes {path part : ByteString} (h : part ∈ splitSlashes path) :
    slash ∉ part := by
  induction path generalizing part with
  | nil => simp_all [splitSlashes]
  | cons b path ih =>
    by_cases hb : b = slash
    · simp only [splitSlashes, hb, if_true] at h
      obtain rfl | h := List.mem_cons.mp h
      · simp
      · exact ih h
    · obtain ⟨first, parts, hparts⟩ := List.exists_cons_of_ne_nil (splitSlashes_ne_nil path)
      simp only [splitSlashes, hb, if_false, hparts] at h
      obtain rfl | h := List.mem_cons.mp h
      · simpa [Ne.symm hb] using ih (hparts ▸ List.mem_cons_self)
      · exact ih (hparts ▸ List.mem_cons_of_mem first h)

theorem isName_of_mem_asked {path name : ByteString} (h : name ∈ asked path) : IsName name := by
  obtain ⟨hmem, hne⟩ := List.mem_filter.mp h
  exact ⟨by simpa using hne, notMem_of_mem_splitSlashes hmem⟩

theorem text_concat_of_ne_nil {place : Place} (h : place ≠ []) (name : ByteString) :
    Place.text (place ++ [name]) = Place.text place ++ slash :: name := by
  simp only [Place.text, List.cons_append, List.cons.injEq, true_and]
  induction place with
  | nil => exact absurd rfl h
  | cons first place ih =>
    cases place with
    | nil => simp
    | cons second place =>
      simp only [List.cons_append, List.intercalate_cons_cons] at ih ⊢
      rw [ih (List.cons_ne_nil _ _)]
      simp

theorem getLast?_text_concat {name : ByteString} (h : name ≠ []) (place : Place) :
    (Place.text (place ++ [name])).getLast? = name.getLast? := by
  obtain rfl | hplace := eq_or_ne place []
  · rw [Place.text, List.nil_append, List.intercalate_singleton, List.getLast?_cons_of_ne_nil h]
  · rw [text_concat_of_ne_nil hplace, List.getLast?_append_of_ne_nil _ (List.cons_ne_nil _ _),
      List.getLast?_cons_of_ne_nil h]

theorem text_concat {place : Place} (hplace : ∀ name ∈ place, IsName name) (name : ByteString) :
    Place.text (place ++ [name]) = join (Place.text place) name := by
  obtain rfl | ⟨front, last, rfl⟩ := place.eq_nil_or_concat'
  · simp [Place.text, join]
  · obtain ⟨hne, hslash⟩ := hplace last (by simp)
    have hlast : (Place.text (front ++ [last])).getLast? ≠ some slash := by
      rw [getLast?_text_concat hne]
      exact fun h => hslash (List.mem_of_getLast? h)
    rw [text_concat_of_ne_nil (by simp), join, if_neg hlast]

theorem asked_text {place : Place} (hplace : ∀ name ∈ place, IsName name) :
    asked (Place.text place) = place := by
  induction place using List.reverseRecOn with
  | nil => decide
  | append_singleton place name ih =>
    have hplace' : ∀ other ∈ place, IsName other :=
      fun other hother => hplace other (List.mem_append_left [name] hother)
    rw [text_concat hplace', asked_join (hplace name (by simp)), ih hplace']

theorem isAbsolute_text (place : Place) : isAbsolute (Place.text place) = true := by
  simp [isAbsolute, Place.text]

theorem text_ne_nil (place : Place) : Place.text place ≠ [] := by
  simp [Place.text]

namespace Entry

variable {root : Entry} {here place : Place} {path : ByteString} {xs : List ByteString}

theorem Passes.filter_dot (h : root.Passes here xs) :
    root.Passes here (xs.filter (· ≠ ByteString.ofString ".")) := by
  induction xs generalizing here with
  | nil => exact h
  | cons name xs ih =>
    obtain ⟨hhere, hrest⟩ := passes_cons_iff.mp h
    by_cases hdot : name = "."
    · simpa [hdot] using ih (by simpa [enter, hdot] using hrest)
    · simpa [hdot] using passes_cons_iff.mpr ⟨hhere, ih hrest⟩

theorem Passes.concat_dot (h : root.Passes here xs) :
    root.Passes here (xs ++ [ByteString.ofString "."]) := by
  refine h.append (passes_cons_iff.mpr ⟨h xs List.prefix_rfl, ?_⟩)
  exact passes_nil_iff.mpr (h xs List.prefix_rfl)

theorem ne_nil_of_resolve (h : root.resolve here path = .ok place) : path ≠ [] := by
  rintro rfl
  simp [resolve] at h

theorem resolve_of_passes (hne : path ≠ []) (habsolute : isAbsolute path = true)
    (h : root.Passes [] (asked path)) (here : Place) :
    root.resolve here path = .ok (reach [] (asked path)) := by
  have hend : ∀ place, walk root maxLinks place [] = .ok place := fun _ => rfl
  rw [resolve, if_neg hne, if_pos habsolute]
  obtain hsteps | hsteps := steps_eq path
  · rw [hsteps, ← List.append_nil (asked path), walk_of_passes h, hend, List.append_nil]
  · rw [hsteps, ← List.append_nil (_ ++ _), walk_of_passes h.concat_dot, hend, reach_append]
    rfl

theorem walkWith_of_walk_zero {follow : Place → List ByteString → Except AccessError Place}
    (h : walk root 0 here xs = .ok place) : walkWith root follow here xs = .ok place := by
  induction xs generalizing here with
  | nil => exact h
  | cons name xs ih =>
    refine walkWith_cons_imp (fun _ hrest => ih hrest) (fun _ _ hlink => ?_) h
    cases hlink

/-- No links are on the way on which a path leads. -/
def IsStraight (root : Entry) (here : Place) (path : ByteString) : Prop :=
  ∃ place, root.walk 0 (if isAbsolute path then [] else here) (steps path) = .ok place

theorem IsStraight.walk_eq (h : root.IsStraight here path)
    (hresolve : root.resolve here path = .ok place) :
    root.walk 0 (if isAbsolute path then [] else here) (steps path) = .ok place := by
  obtain ⟨place', hwalk⟩ := h
  rw [resolve, if_neg (ne_nil_of_resolve hresolve)] at hresolve
  obtain rfl : place' = place := Except.ok.inj ((walkWith_of_walk_zero hwalk).symm.trans hresolve)
  exact hwalk

end Entry

end Files

namespace Config

open Files

/-! ### The chain of places above a path -/

theorem mem_ancestors_iff {place above : Place} : above ∈ ancestors place ↔ above <+: place := by
  induction place generalizing above with
  | nil => simp [ancestors]
  | cons name place ih =>
    simp only [ancestors, List.mem_append, List.mem_map, ih, List.mem_singleton,
      List.prefix_cons_iff]
    constructor
    · rintro (⟨above, habove, rfl⟩ | rfl)
      · exact Or.inr ⟨above, rfl, habove⟩
      · exact Or.inl rfl
    · rintro (rfl | ⟨above, rfl, habove⟩)
      · exact Or.inr rfl
      · exact Or.inl ⟨above, habove, rfl⟩

theorem ancestors_pairwise (place : Place) :
    (ancestors place).Pairwise fun longer shorter => shorter <+: longer := by
  induction place with
  | nil => exact List.pairwise_singleton _ _
  | cons name place ih =>
    have hmap : ((ancestors place).map (name :: ·)).Pairwise (fun longer shorter =>
        shorter <+: longer) :=
      List.pairwise_map.mpr (ih.imp fun h => List.cons_prefix_cons.mpr ⟨rfl, h⟩)
    refine List.pairwise_append.mpr ⟨hmap, List.pairwise_singleton _ _, ?_⟩
    intro longer _ shorter hshorter
    rw [List.mem_singleton.mp hshorter]
    exact List.nil_prefix

/-- The longest of the front parts of a list that are accepted. -/
def IsLongest (accepts : Place → Prop) (place above : Place) : Prop :=
  above <+: place ∧ accepts above ∧ ∀ other, other <+: place → accepts other → other <+: above

theorem IsLongest.unique {accepts : Place → Prop} {place above above' : Place}
    (h : IsLongest accepts place above) (h' : IsLongest accepts place above') : above = above' := by
  obtain ⟨hfront, haccepts, hlongest⟩ := h
  obtain ⟨hfront', haccepts', hlongest'⟩ := h'
  exact (hlongest' above hfront haccepts).eq_of_length_le
    (hlongest above' hfront' haccepts').length_le

theorem isLongest_congr {accepts accepts' : Place → Prop} {place above : Place}
    (h : ∀ q, q <+: place → (accepts q ↔ accepts' q)) :
    IsLongest accepts place above ↔ IsLongest accepts' place above := by
  refine and_congr_right fun hfront => and_congr (h above hfront) (forall₂_congr fun q hq => ?_)
  rw [h q hq]

theorem isLongest_of_find?_ancestors {accepts : Place → Bool} {place above : Place}
    (h : (ancestors place).find? accepts = some above) :
    IsLongest (accepts · = true) place above := by
  obtain ⟨haccepts, front, back, hsplit, hfront⟩ := List.find?_eq_some_iff_append.mp h
  have hpairwise := ancestors_pairwise place
  rw [hsplit] at hpairwise
  refine ⟨mem_ancestors_iff.mp (by simp [hsplit]), haccepts, fun other hother hother' => ?_⟩
  have hmem := mem_ancestors_iff.mpr hother
  rw [hsplit] at hmem
  obtain hmem | hmem := List.mem_append.mp hmem
  · simpa [hother'] using hfront other hmem
  · obtain rfl | hmem := List.mem_cons.mp hmem
    · exact List.prefix_rfl
    · exact List.rel_of_pairwise_cons (List.pairwise_append.mp hpairwise).2.1 hmem

theorem find?_ancestors_eq_some_iff {accepts : Place → Bool} {place above : Place} :
    (ancestors place).find? accepts = some above ↔ IsLongest (accepts · = true) place above := by
  refine ⟨isLongest_of_find?_ancestors, fun h => ?_⟩
  cases hfirst : (ancestors place).find? accepts with
  | none => simpa [h.2.1] using List.find?_eq_none.mp hfirst above (mem_ancestors_iff.mpr h.1)
  | some first => rw [(isLongest_of_find?_ancestors hfirst).unique h]

section

variable {tree : Entry} {here place : Place} {start path : ByteString} {q d : Place}

theorem findConfig?_eq_some_iff :
    findConfig? tree here start = some path ↔
      ∃ q, IsLongest (fun q => tree.holdsFile here (configPath q) = true) (absolute here start) q ∧
        configPath q = path := by
  simp only [findConfig?, List.find?_map, Option.map_eq_some_iff]
  exact exists_congr fun q => and_congr_left fun _ => find?_ancestors_eq_some_iff

theorem findConfig?_eq_none_iff :
    findConfig? tree here start = none ↔
      ∀ q, q <+: absolute here start → tree.holdsFile here (configPath q) = false := by
  simp [findConfig?, mem_ancestors_iff]

/-! ### Paths of configurations -/

/-- A directory holds a file with the name of configurations, or a link to a file. -/
def HoldsConfig (tree : Entry) (d : Place) : Prop := tree.holdsFile d configName = true

instance holdsConfigDecidable (tree : Entry) (d : Place) : Decidable (HoldsConfig tree d) :=
  inferInstanceAs (Decidable (_ = true))

def IsConfigOf (tree : Entry) (here : Place) (path : ByteString) (d : Place) : Prop :=
  ∃ dir, path = join dir configName ∧ tree.resolve here dir = .ok d

theorem isName_configName : IsName configName := by decide

theorem configPath_eq_join (hq : ∀ name ∈ q, IsName name) :
    configPath q = join (Place.text q) configName := text_concat hq configName

theorem holdsFile_configPath_iff (hq : ∀ name ∈ q, IsName name) (h : tree.Passes [] q)
    (here : Place) :
    tree.holdsFile here (configPath q) = true ↔ HoldsConfig tree (reach [] q) := by
  have hsteps : steps (configPath q) = q ++ [configName] := by
    rw [configPath_eq_join hq, steps_join isName_configName, asked_text hq]
  have hname : steps configName = [configName] := by decide
  have hresolve : tree.resolve here (configPath q) = tree.resolve (reach [] q) configName := by
    rw [Entry.resolve, Entry.resolve, if_neg (by exact text_ne_nil _),
      if_pos (by exact isAbsolute_text _), if_neg (by decide), if_neg (by decide), hsteps, hname]
    exact Entry.walk_of_passes h _
  rw [HoldsConfig, Entry.holdsFile, Entry.holdsFile, Entry.find?, Entry.find?, hresolve]

theorem isConfigOf_configPath_iff (hq : ∀ name ∈ q, IsName name) (h : tree.Passes [] q) :
    IsConfigOf tree here (configPath q) d ↔ reach [] q = d := by
  rw [configPath_eq_join hq]
  constructor
  · rintro ⟨dir, hjoin, hresolve⟩
    have hne := Entry.ne_nil_of_resolve hresolve
    have habsolute : isAbsolute dir = true := by
      rw [← isAbsolute_join hne, ← hjoin, isAbsolute_join (text_ne_nil q), isAbsolute_text]
    have hasked : asked dir = q := by
      have hparts := congrArg asked hjoin
      rw [asked_join isName_configName, asked_join isName_configName, asked_text hq] at hparts
      exact (List.append_cancel_right hparts).symm
    rw [Entry.resolve_of_passes hne habsolute (hasked.symm ▸ h), hasked] at hresolve
    exact Except.ok.inj hresolve
  · rintro rfl
    have hasked := asked_text hq
    refine ⟨Place.text q, rfl, ?_⟩
    rw [Entry.resolve_of_passes (text_ne_nil q) (isAbsolute_text q) (hasked.symm ▸ h), hasked]

/-! ### The nearest configuration -/

/-- A directory in which someone can be. -/
structure IsWorkingDirectory (tree : Entry) (here : Place) : Prop where
  directory : tree.IsDirectory here
  names : ∀ name ∈ here, name ≠ "." ∧ name ≠ ".."

/-- The search from a path that leads to a place finds the configuration of the nearest directory,
up from that place, that holds one. It finds nothing only if no directory there does. -/
structure FindsNearest (tree : Entry) (here : Place) (start : ByteString) (place : Place) : Prop where
  found : ∀ path, findConfig? tree here start = some path →
    ∃ d, IsLongest (HoldsConfig tree) place d ∧ IsConfigOf tree here path d
  none : findConfig? tree here start = none ↔ ∀ d, d <+: place → ¬HoldsConfig tree d

/-- Wherever front parts of the path lead to a configuration that is not up from the place, longer
ones lead to one that is. -/
def IsShielded (tree : Entry) (here : Place) (start : ByteString) (place : Place) : Prop :=
  ∀ q, q <+: absolute here start → HoldsConfig tree (reach [] q) → ¬reach [] q <+: place →
    ∃ q', q <+: q' ∧ q' <+: absolute here start ∧ HoldsConfig tree (reach [] q') ∧
      reach [] q' <+: place

section

variable (hnamed : tree.isNamed = true) (hhere : IsWorkingDirectory tree here)
  (hplace : tree.IsDirectory place)
  (hwalk : tree.walk 0 (if isAbsolute start then [] else here) (steps start) = .ok place)

include hhere in
theorem passes_here : tree.Passes [] here := by
  intro q hq
  rw [reach_eq_append (fun name hname => hhere.names name (hq.subset hname)), List.nil_append]
  exact Entry.isDirectory_of_prefix hhere.directory hq

include hnamed hhere in
theorem isName_of_mem_absolute : ∀ name ∈ absolute here start, IsName name := by
  have hnames : ∀ name ∈ names start, IsName name := by
    intro name hname
    rw [names_eq_filter] at hname
    exact isName_of_mem_asked (List.mem_of_mem_filter hname)
  obtain ⟨es, hget⟩ := hhere.directory
  unfold absolute
  split
  · exact hnames
  · exact List.forall_mem_append.mpr ⟨Entry.isName_of_get? hnamed hget, hnames⟩

include hhere hplace hwalk

theorem passes_absolute :
    tree.Passes [] (absolute here start) ∧ reach [] (absolute here start) = place := by
  obtain ⟨hpasses, hreach⟩ := Entry.passes_of_walk hwalk hplace
  have hpasses' : tree.Passes _ (names start) := hpasses.filter_dot
  have hreach' : reach _ (names start) = place := (reach_filter_dot _ (steps start)).trans hreach
  unfold absolute
  split
  next habsolute =>
    rw [if_pos habsolute] at hpasses' hreach'
    exact ⟨hpasses', hreach'⟩
  next habsolute =>
    rw [if_neg habsolute] at hpasses' hreach'
    have hhere' : reach [] here = here := reach_eq_append hhere.names []
    refine ⟨(passes_here hhere).append (hhere'.symm ▸ hpasses'), ?_⟩
    rw [reach_append, hhere', hreach']

theorem exists_front_reach (hd : d <+: place) (hq : q <+: absolute here start)
    (habove : reach [] q <+: d) :
    ∃ q', q <+: q' ∧ q' <+: absolute here start ∧ reach [] q' = d := by
  obtain ⟨-, hreach⟩ := passes_absolute hhere hplace hwalk
  obtain ⟨rest, hrest⟩ := hq
  rw [← hrest, reach_append] at hreach
  obtain ⟨ys, hys, rfl⟩ := exists_prefix_reach habove (hreach.symm ▸ hd)
  refine ⟨q ++ ys, List.prefix_append q ys, ?_, reach_append ..⟩
  rw [← hrest]
  exact (List.prefix_append_right_inj q).mpr hys

theorem isShielded_of_notMem (h : ByteString.ofString ".." ∉ names start) :
    IsShielded tree here start place := by
  intro q hq _ hnot
  obtain ⟨-, hreach⟩ := passes_absolute hhere hplace hwalk
  have hplain : ∀ name ∈ absolute here start, name ≠ "." ∧ name ≠ ".." := by
    have hstart : ∀ name ∈ names start, name ≠ "." ∧ name ≠ ".." := by
      intro name hname
      refine ⟨by simpa using (List.mem_filter.mp hname).2, ?_⟩
      rintro rfl
      exact h hname
    unfold absolute
    split
    · exact hstart
    · exact List.forall_mem_append.mpr ⟨hhere.names, hstart⟩
  rw [reach_eq_append hplain, List.nil_append] at hreach
  rw [reach_eq_append (fun name hname => hplain name (hq.subset hname)), ← hreach] at hnot
  exact absurd hq hnot

include hnamed

theorem holdsFile_front_iff (hq : q <+: absolute here start) :
    tree.holdsFile here (configPath q) = true ↔ HoldsConfig tree (reach [] q) := by
  obtain ⟨hpasses, -⟩ := passes_absolute hhere hplace hwalk
  have hnames := fun name hname => isName_of_mem_absolute hnamed hhere name (hq.subset hname)
  exact holdsFile_configPath_iff hnames (hpasses.of_prefix hq) here

theorem isConfigOf_front_iff (hq : q <+: absolute here start) :
    IsConfigOf tree here (configPath q) d ↔ reach [] q = d := by
  obtain ⟨hpasses, -⟩ := passes_absolute hhere hplace hwalk
  have hnames := fun name hname => isName_of_mem_absolute hnamed hhere name (hq.subset hname)
  exact isConfigOf_configPath_iff hnames (hpasses.of_prefix hq)

/-- Without links on the way, the file of the search is that in the place to which the longest front
part of its path leads that leads to one. -/
theorem findConfig?_eq_some_iff_front :
    findConfig? tree here start = some path ↔
      ∃ q, IsLongest (fun q => HoldsConfig tree (reach [] q)) (absolute here start) q ∧
        configPath q = path := by
  rw [findConfig?_eq_some_iff]
  refine exists_congr fun q => and_congr_left fun _ => isLongest_congr fun front hfront => ?_
  exact holdsFile_front_iff hnamed hhere hplace hwalk hfront

theorem findConfig?_eq_none_iff_front :
    findConfig? tree here start = none ↔
      ∀ q, q <+: absolute here start → ¬HoldsConfig tree (reach [] q) := by
  rw [findConfig?_eq_none_iff]
  refine forall₂_congr fun q hq => ?_
  rw [← holdsFile_front_iff hnamed hhere hplace hwalk hq, Bool.not_eq_true]

theorem findsNearest_of_isShielded (h : IsShielded tree here start place) :
    FindsNearest tree here start place := by
  constructor
  case found =>
    intro path hpath
    obtain ⟨q, ⟨hq, hholds, hlongest⟩, rfl⟩ :=
      (findConfig?_eq_some_iff_front hnamed hhere hplace hwalk).mp hpath
    -- no longer front part leads to a configuration, so nothing shields this one
    have hsame : ∀ q', q <+: q' → q' <+: absolute here start → HoldsConfig tree (reach [] q') →
        q' = q :=
      fun q' hqq' hq' hholds' => (hlongest q' hq' hholds').eq_of_length_le hqq'.length_le
    have habove : reach [] q <+: place := by
      by_contra hnot
      obtain ⟨q', hqq', hq', hholds', habove'⟩ := h q hq hholds hnot
      rw [hsame q' hqq' hq' hholds'] at habove'
      exact hnot habove'
    have hconfig := (isConfigOf_front_iff hnamed hhere hplace hwalk hq).mpr rfl
    refine ⟨reach [] q, ⟨habove, hholds, fun d hd hholds' => ?_⟩, hconfig⟩
    obtain hshort | hlong := List.prefix_or_prefix_of_prefix hd habove
    · exact hshort
    · obtain ⟨q', hqq', hq', rfl⟩ := exists_front_reach hhere hplace hwalk hd hq hlong
      rw [hsame q' hqq' hq' hholds']
  case none =>
    rw [findConfig?_eq_none_iff_front hnamed hhere hplace hwalk]
    constructor
    · intro hnone d hd
      obtain ⟨q, -, hq, rfl⟩ := exists_front_reach hhere hplace hwalk hd
        List.nil_prefix List.nil_prefix
      exact hnone q hq
    · intro hnone q hq hholds
      obtain ⟨q', -, -, hholds', habove'⟩ := h q hq hholds fun habove => hnone _ habove hholds
      exact hnone _ habove' hholds'

theorem FindsNearest.isShielded (h : FindsNearest tree here start place) :
    IsShielded tree here start place := by
  intro q hq hholds _
  have hsome : ∃ path, findConfig? tree here start = some path := by
    rw [← Option.ne_none_iff_exists', Ne, findConfig?_eq_none_iff_front hnamed hhere hplace hwalk]
    exact fun hnone => hnone q hq hholds
  obtain ⟨path, hpath⟩ := hsome
  obtain ⟨q', ⟨hq', hholds', hlongest⟩, rfl⟩ :=
    (findConfig?_eq_some_iff_front hnamed hhere hplace hwalk).mp hpath
  obtain ⟨d, ⟨habove, -⟩, hd⟩ := h.found _ hpath
  obtain rfl := (isConfigOf_front_iff hnamed hhere hplace hwalk hq').mp hd
  exact ⟨q', hlongest q hq hholds, hq', hholds', habove⟩

end

/-- From every path that leads to a directory, the search finds the file of the longest front part
of the path that has one. If no links are on the way, this is the nearest configuration exactly if
what the search visits beside the places above the directory is shielded, and always if the path
makes no step to a parent. -/
theorem findsNearest_iff_isShielded (hnamed : tree.isNamed = true)
    (hhere : IsWorkingDirectory tree here) (hresolve : tree.resolve here start = .ok place)
    (hplace : tree.IsDirectory place) :
    (∀ path, findConfig? tree here start = some path ↔ ∃ q,
      IsLongest (fun q => tree.holdsFile here (configPath q) = true) (absolute here start) q ∧
        configPath q = path) ∧
    (tree.IsStraight here start →
      (FindsNearest tree here start place ↔ IsShielded tree here start place) ∧
      (ByteString.ofString ".." ∉ names start → FindsNearest tree here start place)) := by
  refine ⟨fun path => findConfig?_eq_some_iff, fun hstraight => ?_⟩
  have hwalk := hstraight.walk_eq hresolve
  refine ⟨⟨fun h => ?_, fun h => ?_⟩, fun hnames => ?_⟩
  · exact h.isShielded hnamed hhere hplace hwalk
  · exact findsNearest_of_isShielded hnamed hhere hplace hwalk h
  · have hshielded := isShielded_of_notMem hhere hplace hwalk hnames
    exact findsNearest_of_isShielded hnamed hhere hplace hwalk hshielded

end

/-- A directory with a configuration, in a directory that holds none. -/
def sideTree : Entry :=
  .directory [("b", .directory [
    ("mocklint.toml", .file (.text "exclude = [\"x\"]")), ("c", .directory [])])]

theorem sideTree_search :
    sideTree.isNamed = true ∧
    (FindsNearest sideTree [] "b/.." [] ↔ IsShielded sideTree [] "b/.." []) ∧
    FindsNearest sideTree ["b"] "./c/" ["b", "c"] := by
  have hnamed : sideTree.isNamed = true := by decide
  have hroot : IsWorkingDirectory sideTree [] := ⟨⟨_, rfl⟩, by decide⟩
  have hbelow : IsWorkingDirectory sideTree ["b"] := ⟨⟨_, rfl⟩, by decide⟩
  have hup : sideTree.resolve [] "b/.." = .ok [] := by decide
  have hdown : sideTree.resolve ["b"] "./c/" = .ok ["b", "c"] := by decide
  obtain ⟨-, hsearch⟩ := findsNearest_iff_isShielded hnamed hroot hup ⟨_, rfl⟩
  obtain ⟨-, hsearch'⟩ := findsNearest_iff_isShielded hnamed hbelow hdown ⟨_, rfl⟩
  exact ⟨hnamed, (hsearch ⟨[], by decide⟩).1, (hsearch' ⟨["b", "c"], by decide⟩).2 (by decide)⟩

/-- From the parent of a directory, reached through that directory, the search finds the
configuration in the directory, which is below. -/
theorem sideTree_not_findsNearest :
    sideTree.isNamed = true ∧ sideTree.resolve [] "b/.." = .ok [] ∧
    findConfig? sideTree [] "b/.." = some "/b/mocklint.toml" ∧
    ¬FindsNearest sideTree [] "b/.." [] := by
  have hsearch : findConfig? sideTree [] "b/.." = some "/b/mocklint.toml" := by decide
  refine ⟨by decide, by decide, hsearch, fun h => ?_⟩
  obtain ⟨d, ⟨habove, hholds, -⟩, -⟩ := h.found _ hsearch
  obtain rfl : d = [] := List.prefix_nil.mp habove
  exact absurd hholds (by decide)

end Config
end CastLint

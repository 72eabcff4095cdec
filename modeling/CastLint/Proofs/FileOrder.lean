import CastLint.Config.Exclusion
import CastLint.Proofs.FoundFiles
import Mathlib.Data.List.TakeWhile

/-! Which files are found below a directory, and in which order. Hidden entries and directories that
cannot be listed are dropped on the way down, and what is no source file or is excluded only at the
end; together this leaves the files that meet all conditions. They come in the order of the names on
the way to them, name by name, which is not the order of their paths as bytes. -/

namespace CastLint
namespace Files

open ByteString (dot)

/-! ### Names of paths -/

theorem names_join {path name : ByteString} (hname : IsName name) (hdot : name ≠ ".") :
    names (join path name) = names path ++ [name] := by
  rw [names_eq_filter, asked_join hname, List.filter_append, ← names_eq_filter]
  simp [hdot]

theorem names_pathBelow {place : Place} (hplace : ∀ name ∈ place, IsName name ∧ name ≠ ".")
    (path : ByteString) : names (pathBelow path place) = names path ++ place := by
  induction place generalizing path with
  | nil => simp [pathBelow]
  | cons name place ih =>
    obtain ⟨⟨hname, hdot⟩, hrest⟩ := List.forall_mem_cons.mp hplace
    have htail : pathBelow path (name :: place) = pathBelow (join path name) place := rfl
    rw [htail, ih hrest, names_join hname hdot, List.append_assoc, List.singleton_append]

/-- A file has the extension that stands behind the last dot of its name, if something stands in
front of that dot. -/
theorem fileExtension?_eq_some_iff {path extension : ByteString} :
    fileExtension? path = some extension ↔
      ∃ stem, stem ≠ [] ∧ dot ∉ extension ∧ fileName? path = some (stem ++ dot :: extension) := by
  unfold fileExtension?
  cases hname : fileName? path with
  | none => simp
  | some name =>
    simp only [Option.bind_eq_bind, Option.bind_some, Option.some.injEq]
    constructor
    · intro h
      split at h
      next b c cs hdrop =>
        obtain rfl : (name.reverse.takeWhile (· ≠ dot)).reverse = extension := by simpa using h
        obtain rfl : b = dot := by
          have hhead := List.head?_dropWhile_not (· ≠ dot) name.reverse
          rw [hdrop] at hhead
          simpa using hhead
        have hreverse : name.reverse = name.reverse.takeWhile (· ≠ dot) ++ dot :: c :: cs := by
          rw [← hdrop, List.takeWhile_append_dropWhile]
        refine ⟨(c :: cs).reverse, by simp, ?_, ?_⟩
        · intro hmem
          have hne := List.mem_takeWhile_imp (by simpa using hmem)
          simp at hne
        · have hname := congrArg List.reverse hreverse
          simpa using hname
      next => simp at h
    · rintro ⟨stem, hstem, hextension, rfl⟩
      obtain ⟨c, cs, hcs⟩ := List.exists_cons_of_ne_nil (List.reverse_eq_nil_iff.not.mpr hstem)
      have hreverse : (stem ++ dot :: extension).reverse = extension.reverse ++ dot :: c :: cs := by
        simp [hcs]
      have hbehind : ∀ b ∈ extension.reverse, decide (b ≠ dot) = true := by
        intro b hb
        simp only [decide_eq_true_eq]
        rintro rfl
        exact hextension (List.mem_reverse.mp hb)
      rw [hreverse, List.dropWhile_append_of_pos hbehind, List.takeWhile_append_of_pos hbehind]
      simp

theorem isSource_iff {path : ByteString} :
    isSource path = true ↔ ∃ stem, stem ≠ [] ∧ ∃ extension ∈ sourceExtensions,
      fileName? path = some (stem ++ dot :: ByteString.ofString extension) := by
  have hdotless : ∀ extension ∈ sourceExtensions, dot ∉ ByteString.ofString extension := by
    decide +kernel
  simp only [isSource, Option.any_eq_true, Option.bind_eq_some_iff, List.contains_iff_mem,
    ByteString.text?_eq_some_iff, fileExtension?_eq_some_iff]
  constructor
  · rintro ⟨extension, ⟨_, ⟨stem, hstem, -, hname⟩, rfl⟩, hmem⟩
    exact ⟨stem, hstem, extension, hmem, hname⟩
  · rintro ⟨stem, hstem, extension, hmem, hname⟩
    exact ⟨extension, ⟨_, ⟨stem, hstem, hdotless extension hmem, hname⟩, rfl⟩, hmem⟩

theorem isHidden_eq_false_iff {name : ByteString} :
    isHidden name = false ↔
      ∀ s : String, name = s → s.toList.head? ≠ some '.' ∧ s ≠ "node_modules" := by
  rw [isHidden, Option.any_eq_false]
  refine forall_congr' fun s => ?_
  rw [ByteString.text?_eq_some_iff]
  simp

section

variable {refused : Place → Bool} {e : Entry} {place : Place}

theorem names_of_mem_sights (hnamed : e.isNamed = true) (h : (place, .file) ∈ sights refused e)
    (path : ByteString) : names (pathBelow path place) = names path ++ place := by
  obtain ⟨⟨c, hget⟩, hshown, -⟩ := (mem_sights_iff hnamed).mp h
  refine names_pathBelow (fun name hname => ⟨Entry.isName_of_get? hnamed hget name hname, ?_⟩) path
  exact (ne_dots_of_isHidden (hshown name hname)).1

theorem fileName?_of_mem_sights {es : List (ByteString × Entry)}
    (hnamed : (Entry.directory es).isNamed = true)
    (h : (place, .file) ∈ sights refused (.directory es)) (path : ByteString) :
    fileName? (pathBelow path place) = place.getLast? := by
  obtain ⟨⟨c, hget⟩, hshown, -⟩ := (mem_sights_iff hnamed).mp h
  have hplace : place ≠ [] := by
    rintro rfl
    simp [Entry.get?] at hget
  obtain ⟨last, hlast⟩ : ∃ last, place.getLast? = some last :=
    ⟨_, List.getLast?_eq_some_getLast hplace⟩
  have hnames : (names path ++ place).getLast? = some last := by
    rw [List.getLast?_append_of_ne_nil _ hplace, hlast]
  have hup : last ≠ ".." :=
    (ne_dots_of_isHidden (hshown last (List.mem_of_getLast? hlast))).2
  rw [fileName?, names_of_mem_sights hnamed h, hnames, hlast]
  simp [hup]

end

theorem below?_eq_some_iff {base place below : Place} :
    below? base place = some below ↔ place = base ++ below := by
  induction base generalizing place with
  | nil => simp [below?]
  | cons name base ih =>
    cases place with
    | nil => simp [below?]
    | cons name' place =>
      by_cases hname : name = name'
      · simp [below?, hname, ih]
      · simp [below?, hname, Ne.symm hname]

end Files

/-! ### Exclusions -/

namespace Config

open Files

/-- One of the patterns matches a path as it is seen from the place of the configuration: what
follows that place, for a file below it, and else the path as it is given. -/
def Exclusion.Matches (x : Exclusion) (here : Place) (path : ByteString) : Prop :=
  ∃ pattern ∈ x.patterns,
    (∃ below, absolute here path = x.base ++ below ∧
      pattern.isMatch ([ByteString.slash].intercalate below) = true) ∨
    ¬x.base <+: absolute here path ∧ pattern.isMatch path = true

theorem Exclusion.excludes_iff {x : Exclusion} {here : Place} {path : ByteString} :
    x.excludes here path = true ↔ x.Matches here path := by
  simp only [excludes, matchesAny, List.any_eq_true, Matches]
  cases hbelow : below? x.base (absolute here path) with
  | none =>
    have hnot : ¬x.base <+: absolute here path := by
      rintro ⟨below, hbase⟩
      simp [below?_eq_some_iff.mpr hbase.symm] at hbelow
    have hnone : ∀ below, absolute here path ≠ x.base ++ below :=
      fun below hbase => hnot ⟨below, hbase.symm⟩
    simp [hnot, hnone]
  | some below =>
    rw [below?_eq_some_iff] at hbelow
    simp [hbelow, List.append_cancel_left_eq]

end Config

namespace Files

open ByteString (dot)
open Config (Exclusion parsePatterns)

/-! ### The files below a directory -/

section

variable {refusals : Refusals} {tree : Entry} {here base : Place} {path : ByteString}
  {exclusion : Exclusion} {place : Place}

def IsSourceName (name : ByteString) : Prop :=
  ∃ stem, stem ≠ [] ∧ ∃ extension ∈ sourceExtensions,
    name = stem ++ dot :: ByteString.ofString extension

/-- A place below the directory `base`, to which `path` leads, is that of a file to check: all
directories above it can be listed, no name on the way to it is a text that hides it, it has an
extension of source files, and it is not excluded. -/
structure IsFound (refusals : Refusals) (tree : Entry) (here base : Place) (path : ByteString)
    (exclusion : Exclusion) (place : Place) : Prop where
  file : ∃ c, tree.get? (base ++ place) = some (.file c)
  listed : ∀ above, above <+: place → above ≠ place → refusals.lists (pathBelow path above) = none
  shown : ∀ name ∈ place, ∀ s : String, name = s → s.toList.head? ≠ some '.' ∧ s ≠ "node_modules"
  source : ∃ name, place.getLast? = some name ∧ IsSourceName name
  kept : ¬exclusion.Matches here (pathBelow path place)

theorem isFound_iff {es : List (ByteString × Entry)} (hnamed : tree.isNamed = true)
    (hbase : tree.get? base = some (.directory es)) :
    IsFound refusals tree here base path exclusion place ↔
      (place, .file) ∈ sights (refusals.unlists path) (.directory es) ∧
        isSource (pathBelow path place) = true ∧
        exclusion.excludes here (pathBelow path place) = false := by
  have hes := Entry.isNamed_of_get? hnamed hbase
  have hseen : (place, .file) ∈ sights (refusals.unlists path) (.directory es) ↔
      (∃ c, tree.get? (base ++ place) = some (.file c)) ∧
        (∀ name ∈ place, ∀ s : String, name = s →
          s.toList.head? ≠ some '.' ∧ s ≠ "node_modules") ∧
        ∀ above, above <+: place → above ≠ place →
          refusals.lists (pathBelow path above) = none := by
    simp only [mem_sights_iff hes, IsSight, IsVisible, Entry.get?_append hbase,
      isHidden_eq_false_iff, Refusals.unlists, Option.isSome_eq_false_iff, Option.isNone_iff_eq_none]
  have hsource : (place, .file) ∈ sights (refusals.unlists path) (.directory es) →
      (isSource (pathBelow path place) = true ↔
        ∃ name, place.getLast? = some name ∧ IsSourceName name) := by
    intro h
    rw [isSource_iff, fileName?_of_mem_sights hes h]
    constructor
    · rintro ⟨stem, hstem, extension, hmem, hname⟩
      exact ⟨_, hname, stem, hstem, extension, hmem, rfl⟩
    · rintro ⟨_, hname, stem, hstem, extension, hmem, rfl⟩
      exact ⟨stem, hstem, extension, hmem, hname⟩
  rw [← Bool.not_eq_true, Exclusion.excludes_iff]
  constructor
  · rintro ⟨hfile, hlisted, hshown, hextension, hkept⟩
    have h := hseen.mpr ⟨hfile, hshown, hlisted⟩
    exact ⟨h, (hsource h).mpr hextension, hkept⟩
  · rintro ⟨h, hextension, hkept⟩
    obtain ⟨hfile, hshown, hlisted⟩ := hseen.mp h
    exact ⟨hfile, hlisted, hshown, (hsource h).mp hextension, hkept⟩

/-- The files to check below a directory, all of them and each once, come in the order of the lists
of names on the way to them. -/
theorem discover?_in_order (exclusion : Exclusion) {es : List (ByteString × Entry)}
    (hnamed : tree.isNamed = true) (hresolve : tree.resolve here path = .ok base)
    (hbase : tree.get? base = some (.directory es)) (hfinds : refusals.finds path = none) :
    ∃ places : List Place,
      discover? refusals tree here path (exclusion.excludes here) =
        some (places.map (pathBelow path)) ∧
      (places.map (pathBelow path)).Pairwise (fun file later => names file < names later) ∧
      (∀ place, place ∈ places ↔ IsFound refusals tree here base path exclusion place) ∧
      ∀ place ∈ places, tree.LeadsTo here (pathBelow path place) (base ++ place) := by
  have hes := Entry.isNamed_of_get? hnamed hbase
  have hfind : refusals.find? tree here path = some (.directory es) := by
    rw [Refusals.find?_eq_some_iff]
    simp only [hfinds, Entry.find?, hresolve, hbase, true_and]
  let keeps (place : Place) : Bool :=
    isSource (pathBelow path place) && !exclusion.excludes here (pathBelow path place)
  let seen := placesOf .file (sights (refusals.unlists path) (.directory es))
  refine ⟨seen.filter keeps, ?_, ?_, fun place => ?_, fun place hplace => ?_⟩
  · rw [discover?_eq_some_iff]
    exact ⟨_, hfind, by rw [List.filter_map]; rfl⟩
  · -- below one path, places are ordered as the lists of all names in the paths are
    refine List.pairwise_map.mpr (((placesOf_sorted hes _ _).filter keeps).imp_of_mem ?_)
    intro place later hplace hlater hlt
    rw [names_of_mem_sights hes (mem_placesOf.mp (List.mem_filter.mp hplace).1),
      names_of_mem_sights hes (mem_placesOf.mp (List.mem_filter.mp hlater).1)]
    exact List.append_left_lt hlt
  · rw [isFound_iff hnamed hbase, List.mem_filter, mem_placesOf]
    simp [keeps]
  · exact leadsTo_pathBelow hes hresolve hbase (mem_placesOf.mp (List.mem_filter.mp hplace).1)

end

/-- A directory with source files, with files that are none of them or are left out, and with what
hides files. The extension in capitals is no extension of source files, and the directory `z` cannot
be listed. -/
def sourceTree : Entry :=
  .directory [("src", .directory [
    ("b.ts", .file (.text "")),
    ("a.ts", .file (.text "")),
    ("a", .directory [("x.ts", .file (.text "")), ("y.TS", .file (.text ""))]),
    ("c.md", .file (.text "")),
    ("d.ts", .file (.text "")),
    ("e.ts", .link "a.ts"),
    (".git", .directory [("f.ts", .file (.text ""))]),
    ("node_modules", .directory [("g.ts", .file (.text ""))]),
    ("z", .directory [("h.ts", .file (.text ""))])])]

def lockedRefusals : Refusals :=
  { Refusals.ofLength with
    lists := fun path =>
      if path = "src/./z" then some (.other "Permission denied (os error 13)") else none }

def sourceExclusion : Exclusion := ⟨((parsePatterns ["d.ts"]).toOption.getD []), ["src"]⟩

theorem sourceTree_in_order :
    discover? lockedRefusals sourceTree [] "src/." (sourceExclusion.excludes []) =
      some (["src/./a/x.ts", "src/./a.ts", "src/./b.ts"].map ByteString.ofString) ∧
    skipped lockedRefusals sourceTree [] "src/." =
      [(ByteString.ofString "src/./z", .other "Permission denied (os error 13)")] ∧
    ∃ places : List Place,
      discover? lockedRefusals sourceTree [] "src/." (sourceExclusion.excludes []) =
        some (places.map (pathBelow "src/.")) ∧
      (places.map (pathBelow "src/.")).Pairwise (fun file later => names file < names later) ∧
      (∀ place, place ∈ places ↔
        IsFound lockedRefusals sourceTree [] ["src"] "src/." sourceExclusion place) ∧
      ∀ place ∈ places, sourceTree.LeadsTo [] (pathBelow "src/." place)
        ([ByteString.ofString "src"] ++ place) := by
  refine ⟨by decide +kernel, by decide +kernel, ?_⟩
  exact discover?_in_order sourceExclusion (by decide +kernel) (by decide +kernel) rfl
    (by decide +kernel)

def oddTree : Entry :=
  .directory [
    ([dot, 255], .directory [("a.ts", .file (.text ""))]),
    ("b", .directory [("c.ts", .file (.text ""))])]

def oddRefusals : Refusals :=
  { Refusals.ofLength with
    lists := fun path =>
      if path = "./b" then some (.other "Permission denied (os error 13)") else none }

/-- A place is that of a file to check, whatever can be listed and whatever names encode. -/
structure IsFoundPlainly (tree : Entry) (here base : Place) (path : ByteString)
    (exclusion : Exclusion) (place : Place) : Prop where
  file : ∃ c, tree.get? (base ++ place) = some (.file c)
  shown : ∀ name ∈ place, name.head? ≠ some dot ∧ name ≠ "node_modules"
  source : ∃ name, place.getLast? = some name ∧ IsSourceName name
  kept : ¬exclusion.Matches here (pathBelow path place)

/-- A file below a name that starts with a dot is found if that name encodes no text, and no file is
found below a directory that cannot be listed. -/
theorem oddTree_not_found_plainly :
    oddTree.isNamed = true ∧ oddTree.resolve [] "." = .ok [] ∧
    (∃ files, discover? Refusals.ofLength oddTree [] "." (Exclusion.excludes {} []) = some files ∧
      pathBelow "." [[dot, 255], "a.ts"] ∈ files) ∧
    ¬IsFoundPlainly oddTree [] [] "." {} [[dot, 255], "a.ts"] ∧
    (∃ files, discover? oddRefusals oddTree [] "." (Exclusion.excludes {} []) = some files ∧
      pathBelow "." ["b", "c.ts"] ∉ files) ∧
    IsFoundPlainly oddTree [] [] "." {} ["b", "c.ts"] := by
  have hodd : discover? Refusals.ofLength oddTree [] "." (Exclusion.excludes {} []) =
      some [pathBelow "." [[dot, 255], "a.ts"], pathBelow "." ["b", "c.ts"]] := by decide +kernel
  have hlocked : discover? oddRefusals oddTree [] "." (Exclusion.excludes {} []) =
      some [pathBelow "." [[dot, 255], "a.ts"]] := by decide +kernel
  refine ⟨by decide +kernel, by decide +kernel, ⟨_, hodd, by simp⟩, fun h => ?_,
    ⟨_, hlocked, by decide +kernel⟩, ⟨⟨_, rfl⟩, by decide +kernel, ?_, ?_⟩⟩
  · exact (h.shown [dot, 255] (by simp)).1 rfl
  · exact ⟨"c.ts", rfl, "c", by decide, "ts", by decide, by decide⟩
  · rintro ⟨pattern, hpattern, -⟩
    cases hpattern

end Files
end CastLint

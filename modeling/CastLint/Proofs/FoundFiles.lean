import CastLint.Files.Discovery
import CastLint.Proofs.FileTrees
import Mathlib.Data.List.Lex
import Mathlib.Order.Lattice

/-! What is found below a path. A walk comes to the files and to the directories that cannot be listed
below the entries that are not hidden, each of them once, in the order of the names on the way to
them. The files among them are read and written under paths of their own, one for each. -/

namespace CastLint
namespace Files

/-! ### Sorting -/

instance linearOrderUInt8 : LinearOrder UInt8 where
  le_refl := UInt8.le_refl
  le_trans _ _ _ := UInt8.le_trans
  lt_iff_le_not_ge a b := by
    rw [UInt8.lt_iff_toNat_lt, UInt8.le_iff_toNat_le, UInt8.le_iff_toNat_le]
    omega
  le_antisymm _ _ := UInt8.le_antisymm
  le_total := UInt8.le_total
  toDecidableLE := inferInstance

theorem insertBy_perm {α κ : Type} [LT κ] [DecidableLT κ] (key : α → κ) (a : α) (xs : List α) :
    (Text.insertBy key a xs).Perm (a :: xs) := by
  induction xs with
  | nil => rfl
  | cons b xs ih =>
    rw [Text.insertBy]
    split
    · exact (ih.cons b).trans (List.Perm.swap a b xs)
    · rfl

theorem sortBy_perm {α κ : Type} [LT κ] [DecidableLT κ] (key : α → κ) (xs : List α) :
    (Text.sortBy key xs).Perm xs := by
  induction xs with
  | nil => rfl
  | cons a xs ih => exact (insertBy_perm key a (Text.sortBy key xs)).trans (ih.cons a)

section

variable {α κ : Type} [LinearOrder κ] [DecidableLT κ] {key : α → κ} {a : α} {xs : List α}

theorem insertBy_sorted (h : xs.Pairwise fun x y => key x ≤ key y) :
    (Text.insertBy key a xs).Pairwise fun x y => key x ≤ key y := by
  induction xs with
  | nil => simp [Text.insertBy]
  | cons b xs ih =>
    obtain ⟨hb, hxs⟩ := List.pairwise_cons.mp h
    rw [Text.insertBy]
    split
    next hlt =>
      refine List.pairwise_cons.mpr ⟨fun x hx => ?_, ih hxs⟩
      obtain rfl | hx := List.mem_cons.mp ((insertBy_perm key a xs).mem_iff.mp hx)
      · exact hlt.le
      · exact hb x hx
    next hle =>
      have hab : key a ≤ key b := not_lt.mp hle
      refine List.pairwise_cons.mpr ⟨List.forall_mem_cons.mpr ⟨hab, fun x hx => ?_⟩, h⟩
      exact hab.trans (hb x hx)

theorem sortBy_sorted (key : α → κ) (xs : List α) :
    (Text.sortBy key xs).Pairwise fun x y => key x ≤ key y := by
  induction xs with
  | nil => exact .nil
  | cons a xs ih => exact insertBy_sorted ih

theorem sortBy_strict (h : (xs.map key).Nodup) :
    (Text.sortBy key xs).Pairwise fun x y => key x < key y := by
  have hnodup : ((Text.sortBy key xs).map key).Nodup :=
    ((sortBy_perm key xs).map key).nodup_iff.mpr h
  exact (sortBy_sorted key xs).imp₂ (fun _ _ hle hne => lt_of_le_of_ne hle hne)
    (List.pairwise_map.mp hnodup)

end

/-! ### Walks of one shape -/

mutual

theorem sights_shape : (refused : Place → Bool) → (e : Entry) →
    sights refused e.shape = sights refused e
  | _, .file _ => rfl
  | _, .link _ => rfl
  | refused, .directory es => by
    rw [Entry.shape, sights, sights, sightsBelow_shapes refused es]

theorem sightsBelow_shapes : (refused : Place → Bool) → (es : List (ByteString × Entry)) →
    sightsBelow refused (Entry.shapes es) = sightsBelow refused es
  | _, [] => rfl
  | refused, (name, e) :: es => by
    simp only [Entry.shapes, sightsBelow, sights_shape _ e, sightsBelow_shapes refused es]

end

theorem Refusals.find?_eq_some_iff {refusals : Refusals} {tree e : Entry} {here : Place}
    {path : ByteString} : refusals.find? tree here path = some e ↔
      refusals.finds path = none ∧ tree.find? here path = some e := by
  unfold Refusals.find?
  cases refusals.finds path <;> simp

theorem survey?_congr {tree other : Entry} (h : tree.shape = other.shape) (refusals : Refusals)
    (here : Place) (path : ByteString) :
    survey? refusals tree here path = survey? refusals other here path := by
  have hsights : ∀ found : Option Entry, found.map (sights (refusals.unlists path)) =
      (found.map Entry.shape).map (sights (refusals.unlists path)) := by
    intro found
    rw [Option.map_map]
    exact Option.map_congr fun e _ => (sights_shape _ e).symm
  unfold survey? Refusals.find?
  cases refusals.finds path with
  | some e => rfl
  | none =>
    dsimp only
    rw [hsights, Entry.find?_congr h, ← hsights]

theorem discover?_congr {tree other : Entry} (h : tree.shape = other.shape) (refusals : Refusals)
    (here : Place) (path : ByteString) (excluded : ByteString → Bool) :
    discover? refusals tree here path excluded = discover? refusals other here path excluded := by
  rw [discover?, discover?, survey?_congr h]

/-! ### What a walk comes to -/

section

variable {refused : Place → Bool} {name : ByteString} {place : Place} {sight : Sight}
  {found : List (Place × Sight)} {es : List (ByteString × Entry)} {e : Entry}

@[simp]
theorem mem_placesOf : place ∈ placesOf sight found ↔ (place, sight) ∈ found := by
  simp [placesOf]

theorem mem_sightsBelow :
    (name, found) ∈ sightsBelow refused es ↔
      ∃ e, (name, e) ∈ es ∧ isHidden name = false ∧
        found = sights (fun place => refused (name :: place)) e := by
  induction es with
  | nil => simp [sightsBelow]
  | cons x es ih =>
    obtain ⟨n, e⟩ := x
    rw [sightsBelow]
    split
    next hhidden =>
      rw [ih]
      constructor
      · rintro ⟨e', hmem, hrest⟩
        exact ⟨e', List.mem_cons_of_mem _ hmem, hrest⟩
      · rintro ⟨e', hmem, hname, hfound⟩
        obtain heq | hmem := List.mem_cons.mp hmem
        · obtain ⟨rfl, rfl⟩ := Prod.mk.inj heq
          simp [hname] at hhidden
        · exact ⟨e', hmem, hname, hfound⟩
    next hhidden =>
      rw [List.mem_cons, ih]
      constructor
      · rintro (heq | ⟨e', hmem, hrest⟩)
        · obtain ⟨rfl, rfl⟩ := Prod.mk.inj heq
          exact ⟨e, by simp, by simpa using hhidden, rfl⟩
        · exact ⟨e', List.mem_cons_of_mem _ hmem, hrest⟩
      · rintro ⟨e', hmem, hname, rfl⟩
        obtain heq | hmem := List.mem_cons.mp hmem
        · obtain ⟨rfl, rfl⟩ := Prod.mk.inj heq
          exact Or.inl rfl
        · exact Or.inr ⟨e', hmem, hname, rfl⟩

theorem mem_sights_directory :
    (place, sight) ∈ sights refused (.directory es) ↔
      refused [] = true ∧ place = [] ∧ sight = .unlisted ∨
      refused [] = false ∧ ∃ name e rest, (name, e) ∈ es ∧ isHidden name = false ∧
        (rest, sight) ∈ sights (fun place => refused (name :: place)) e ∧ place = name :: rest := by
  rw [sights]
  cases refused [] with
  | true => simp
  | false =>
    simp only [Bool.false_eq_true, if_false, false_and, false_or, true_and, gather,
      List.mem_flatMap, (sortBy_perm _ _).mem_iff, List.mem_map, Prod.exists, mem_sightsBelow,
      Prod.mk.injEq]
    constructor
    · rintro ⟨name, found, ⟨e, hmem, hname, rfl⟩, rest, sight', hrest, rfl, rfl⟩
      exact ⟨name, e, rest, hmem, hname, hrest, rfl⟩
    · rintro ⟨name, e, rest, hmem, hname, hrest, rfl⟩
      exact ⟨name, _, ⟨e, hmem, hname, rfl⟩, rest, sight, hrest, rfl, rfl⟩

theorem ne_dots_of_isHidden (h : isHidden name = false) : name ≠ "." ∧ name ≠ ".." := by
  constructor <;>
  · rintro rfl
    exact absurd h (by decide +kernel)

theorem Entry.isLink_of_mem_sights (h : (place, sight) ∈ sights refused e) : e.isLink = false := by
  cases e with
  | file c => rfl
  | link target => simp [sights] at h
  | directory es => rfl

def IsSight (refused : Place → Bool) (e : Entry) (place : Place) : Sight → Prop
  | .file => ∃ c, e.get? place = some (.file c)
  | .unlisted => (∃ es, e.get? place = some (.directory es)) ∧ refused place = true

/-- A walk comes to a place if no name on the way to it is hidden and if all directories above it can
be listed. -/
def IsVisible (refused : Place → Bool) (place : Place) : Prop :=
  (∀ name ∈ place, isHidden name = false) ∧
    ∀ above, above <+: place → above ≠ place → refused above = false

theorem isVisible_nil : IsVisible refused [] := by
  refine ⟨by simp, fun above habove hne => ?_⟩
  exact absurd (List.prefix_nil.mp habove) hne

theorem isVisible_cons :
    IsVisible refused (name :: place) ↔
      isHidden name = false ∧ refused [] = false ∧
        IsVisible (fun place => refused (name :: place)) place := by
  simp only [IsVisible, List.forall_mem_cons, List.prefix_cons_iff]
  constructor
  · rintro ⟨⟨hname, hrest⟩, hlisted⟩
    refine ⟨hname, hlisted [] (Or.inl rfl) (List.cons_ne_nil _ _).symm, hrest, ?_⟩
    exact fun above habove hne =>
      hlisted (name :: above) (Or.inr ⟨above, rfl, habove⟩) (by simpa using hne)
  · rintro ⟨hname, hfirst, hrest, hlisted⟩
    refine ⟨⟨hname, hrest⟩, ?_⟩
    rintro above (rfl | ⟨above, rfl, habove⟩) hne
    · exact hfirst
    · exact hlisted above habove (by simpa using hne)

/-- A walk comes to the files and to the directories that it cannot list, wherever they are visible,
and to nothing else. -/
theorem mem_sights_iff (hnamed : e.isNamed = true) :
    (place, sight) ∈ sights refused e ↔ IsSight refused e place sight ∧ IsVisible refused place := by
  induction place generalizing e refused with
  | nil =>
    cases e with
    | file c => cases sight <;> simp [sights, IsSight, Entry.get?, isVisible_nil]
    | link target => cases sight <;> simp [sights, IsSight, Entry.get?]
    | directory es =>
      cases sight <;> simp [mem_sights_directory, IsSight, Entry.get?, isVisible_nil]
  | cons name place ih =>
    cases e with
    | file c => cases sight <;> simp [sights, IsSight, Entry.get?]
    | link target => cases sight <;> simp [sights, IsSight, Entry.get?]
    | directory es =>
      obtain ⟨-, hnodup, hbelow⟩ := Entry.isNamed_directory_iff.mp hnamed
      have hsight : ∀ next, (name, next) ∈ es →
          (IsSight refused (.directory es) (name :: place) sight ↔
            IsSight (fun place => refused (name :: place)) next place sight) := by
        intro next hmem
        cases sight <;> simp [IsSight, Entry.get?, Entry.lookup_of_mem hnodup hmem]
      rw [mem_sights_directory, isVisible_cons]
      constructor
      · rintro (⟨-, hnil, -⟩ | ⟨hlisted, name', next, rest, hmem, hhidden, hrest, heq⟩)
        · cases hnil
        obtain ⟨rfl, rfl⟩ := List.cons.inj heq
        obtain ⟨hseen, hvisible⟩ := (ih (hbelow _ hmem)).mp hrest
        exact ⟨(hsight next hmem).mpr hseen, hhidden, hlisted, hvisible⟩
      · rintro ⟨hseen, hhidden, hlisted, hvisible⟩
        obtain ⟨next, hnext⟩ : ∃ next, es.lookup name = some next := by
          cases hnext : es.lookup name with
          | none => cases sight <;> simp [IsSight, Entry.get?, hnext] at hseen
          | some next => exact ⟨next, rfl⟩
        obtain ⟨front, back, rfl, -⟩ := List.lookup_eq_some_iff.mp hnext
        have hmem : (name, next) ∈ front ++ (name, next) :: back := by simp
        have hrest := (ih (hbelow _ hmem)).mpr ⟨(hsight next hmem).mp hseen, hvisible⟩
        exact Or.inr ⟨hlisted, name, next, place, hmem, hhidden, hrest, rfl⟩

end

/-! ### The order of a walk -/

theorem gather_sorted {found : List (ByteString × List (Place × Sight))}
    (hnames : (found.map Prod.fst).Nodup)
    (hplaces : ∀ x ∈ found, x.2.Pairwise (·.1 < ·.1)) : (gather found).Pairwise (·.1 < ·.1) := by
  refine List.pairwise_flatMap.mpr ⟨fun x hx => ?_, ?_⟩
  · have hbelow := hplaces x ((sortBy_perm _ found).mem_iff.mp hx)
    exact List.pairwise_map.mpr (hbelow.imp fun hlt => List.cons_lt_cons_iff.mpr (.inr ⟨rfl, hlt⟩))
  · refine (sortBy_strict hnames).imp fun {x y} hlt s hx t hy => ?_
    obtain ⟨below, -, rfl⟩ := List.mem_map.mp hx
    obtain ⟨below', -, rfl⟩ := List.mem_map.mp hy
    exact List.cons_lt_cons_iff.mpr (.inl hlt)

theorem sightsBelow_names (refused : Place → Bool) (es : List (ByteString × Entry)) :
    ((sightsBelow refused es).map Prod.fst).Sublist (es.map Prod.fst) := by
  induction es with
  | nil => exact List.Sublist.refl []
  | cons x es ih =>
    rw [sightsBelow]
    split
    · exact ih.cons x.1
    · exact ih.cons_cons x.1

mutual

theorem sights_sorted : (refused : Place → Bool) → (e : Entry) → e.isNamed = true →
    (sights refused e).Pairwise (·.1 < ·.1)
  | _, .file _, _ => List.pairwise_singleton _ _
  | _, .link _, _ => .nil
  | refused, .directory es, h => by
    obtain ⟨-, hnodup, hbelow⟩ := Entry.isNamed_directory_iff.mp h
    rw [sights]
    split
    · exact List.pairwise_singleton _ _
    · exact gather_sorted (hnodup.sublist (sightsBelow_names refused es))
        (sightsBelow_sorted refused es hbelow)

theorem sightsBelow_sorted : (refused : Place → Bool) → (es : List (ByteString × Entry)) →
    (∀ x ∈ es, x.2.isNamed = true) → ∀ x ∈ sightsBelow refused es, x.2.Pairwise (·.1 < ·.1)
  | _, [], _ => by simp [sightsBelow]
  | refused, (name, e) :: es, h => by
    obtain ⟨hfirst, hrest⟩ := List.forall_mem_cons.mp h
    rw [sightsBelow]
    split
    · exact sightsBelow_sorted refused es hrest
    · exact List.forall_mem_cons.mpr
        ⟨sights_sorted _ e hfirst, sightsBelow_sorted refused es hrest⟩

end

/-- A walk comes to each place once, in the order of the names on the way to it. -/
theorem placesOf_sorted {e : Entry} (hnamed : e.isNamed = true) (refused : Place → Bool)
    (sight : Sight) : (placesOf sight (sights refused e)).Pairwise (· < ·) := by
  refine List.pairwise_filterMap.mpr ((sights_sorted refused e hnamed).imp ?_)
  rintro ⟨place, seen⟩ ⟨later, seen'⟩ hlt p hp q hq
  simp only [Option.ite_none_right_eq_some, Option.some.injEq] at hp hq
  rwa [← hp.2, ← hq.2]

/-! ### Source files -/

theorem leadsTo_pathBelow {root e : Entry} {here base place : Place} {path : ByteString}
    {refused : Place → Bool} (hnamed : e.isNamed = true) (hresolve : root.resolve here path = .ok base)
    (hget : root.get? base = some e) (hplace : (place, .file) ∈ sights refused e) :
    root.LeadsTo here (pathBelow path place) (base ++ place) := by
  induction place generalizing e base path refused with
  | nil =>
    cases e with
    | file c =>
      rw [List.append_nil]
      exact ⟨hresolve, c, hget⟩
    | link target => simp [sights] at hplace
    | directory es => simp [mem_sights_directory] at hplace
  | cons name place ih =>
    cases e with
    | file c => simp [sights] at hplace
    | link target => simp [sights] at hplace
    | directory es =>
      obtain ⟨-, hnil, -⟩ | ⟨-, name', next, rest, hmem, hhidden, hrest, heq⟩ :=
        mem_sights_directory.mp hplace
      · cases hnil
      obtain ⟨rfl, rfl⟩ := List.cons.inj heq
      obtain ⟨hnames, hnodup, hbelow⟩ := Entry.isNamed_directory_iff.mp hnamed
      have hlookup := Entry.lookup_of_mem hnodup hmem
      obtain ⟨hdot, hup⟩ := ne_dots_of_isHidden hhidden
      have hjoin := Entry.resolve_join hresolve hget hlookup (Entry.isLink_of_mem_sights hrest)
        (hnames _ hmem) hdot hup
      have hnext : root.get? (base ++ [name]) = some next := by
        rw [Entry.get?_append hget]
        simp [Entry.get?, hlookup]
      have htail := ih (hbelow _ hmem) hjoin hnext hrest
      rwa [List.append_assoc] at htail

section

variable {refusals : Refusals} {tree : Entry} {here : Place} {excluded : ByteString → Bool}
  {path : ByteString} {files : List ByteString}

/-- The source files of a path are the files below what it leads to that have the names of source
files and are not left out. -/
theorem discover?_eq_some_iff :
    discover? refusals tree here path excluded = some files ↔
      ∃ e, refusals.find? tree here path = some e ∧
        files = ((placesOf .file (sights (refusals.unlists path) e)).map (pathBelow path)).filter
          fun p => isSource p && !excluded p := by
  rw [discover?, survey?, Option.map_map, Option.map_eq_some_iff]
  exact exists_congr fun e => and_congr_right fun _ => eq_comm

theorem exists_base_of_discover? (hnamed : tree.isNamed = true)
    (h : discover? refusals tree here path excluded = some files) :
    ∃ base e, tree.resolve here path = .ok base ∧ tree.get? base = some e ∧ e.isNamed = true ∧
      refusals.find? tree here path = some e ∧
      files = ((placesOf .file (sights (refusals.unlists path) e)).map (pathBelow path)).filter
        fun p => isSource p && !excluded p := by
  obtain ⟨e, hfind, hfiles⟩ := discover?_eq_some_iff.mp h
  obtain ⟨base, hresolve, hget⟩ := Entry.find?_eq_some (Refusals.find?_eq_some_iff.mp hfind).2
  exact ⟨base, e, hresolve, hget, Entry.isNamed_of_get? hnamed hget, hfind, hfiles⟩

theorem exists_leadsTo_of_discover? (hnamed : tree.isNamed = true)
    (h : discover? refusals tree here path excluded = some files) :
    ∃ base, ∀ file ∈ files, ∃ place, file = pathBelow path place ∧
      tree.LeadsTo here file (base ++ place) := by
  obtain ⟨base, e, hresolve, hget, he, -, rfl⟩ := exists_base_of_discover? hnamed h
  refine ⟨base, fun file hfile => ?_⟩
  obtain ⟨hfile, -⟩ := List.mem_filter.mp hfile
  obtain ⟨place, hplace, rfl⟩ := List.mem_map.mp hfile
  exact ⟨place, rfl, leadsTo_pathBelow he hresolve hget (mem_placesOf.mp hplace)⟩

/-- Two source files below a path that lead to one file have one path. -/
theorem discover?_injective (hnamed : tree.isNamed = true)
    (h : discover? refusals tree here path excluded = some files) {file file' : ByteString}
    {place : Place} (hfile : file ∈ files) (hfile' : file' ∈ files)
    (hleads : tree.LeadsTo here file place) (hleads' : tree.LeadsTo here file' place) :
    file = file' := by
  obtain ⟨base, hall⟩ := exists_leadsTo_of_discover? hnamed h
  obtain ⟨below, rfl, hbelow⟩ := hall file hfile
  obtain ⟨below', rfl, hbelow'⟩ := hall file' hfile'
  have heq : base ++ below = base ++ below' :=
    (hbelow.unique hleads).trans (hbelow'.unique hleads').symm
  rw [List.append_cancel_left heq]

theorem discover?_nodup (hnamed : tree.isNamed = true)
    (h : discover? refusals tree here path excluded = some files) : files.Nodup := by
  obtain ⟨base, e, hresolve, hget, he, -, rfl⟩ := exists_base_of_discover? hnamed h
  have hnodup : (placesOf .file (sights (refusals.unlists path) e)).Nodup :=
    (placesOf_sorted he _ _).imp ne_of_lt
  refine (hnodup.map_on fun p hp q hq heq => ?_).filter _
  have hleads := leadsTo_pathBelow he hresolve hget (mem_placesOf.mp hp)
  rw [heq] at hleads
  exact List.append_cancel_left
    (hleads.unique (leadsTo_pathBelow he hresolve hget (mem_placesOf.mp hq)))

/-- A file is one of the source files of a path: it lies visibly below what the path leads to, it has
the name of a source file, and it is not left out. -/
def IsSourceOf (refusals : Refusals) (tree : Entry) (here : Place) (path : ByteString)
    (excluded : ByteString → Bool) (file : ByteString) : Prop :=
  ∃ e below c, refusals.find? tree here path = some e ∧ e.get? below = some (.file c) ∧
    IsVisible (refusals.unlists path) below ∧ file = pathBelow path below ∧
    isSource file = true ∧ excluded file = false

theorem mem_discover?_iff (hnamed : tree.isNamed = true)
    (h : discover? refusals tree here path excluded = some files) {file : ByteString} :
    file ∈ files ↔ IsSourceOf refusals tree here path excluded file := by
  obtain ⟨-, e, -, -, he, hfind, rfl⟩ := exists_base_of_discover? hnamed h
  simp only [List.mem_filter, List.mem_map, mem_placesOf, mem_sights_iff he, IsSight,
    Bool.and_eq_true, Bool.not_eq_true']
  constructor
  · rintro ⟨⟨below, ⟨⟨c, hget⟩, hvisible⟩, rfl⟩, hsource, hkept⟩
    exact ⟨e, below, c, hfind, hget, hvisible, rfl, hsource, hkept⟩
  · rintro ⟨e', below, c, hfind', hget, hvisible, rfl, hsource, hkept⟩
    obtain rfl := Option.some.inj (hfind.symm.trans hfind')
    exact ⟨⟨below, ⟨⟨c, hget⟩, hvisible⟩, rfl⟩, hsource, hkept⟩

end

end Files
end CastLint

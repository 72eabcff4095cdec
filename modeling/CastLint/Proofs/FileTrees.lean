import CastLint.Command.Outcome
import Mathlib.Data.List.Basic
import Mathlib.Data.List.Nodup

/-! Trees of files before and after files got new contents. Where a path leads depends on the shape of
a tree only, and writing to a file keeps the shape. -/

namespace CastLint
namespace Files
namespace Entry

/-! ### Shapes -/

mutual

/-- A tree without the texts of its files. -/
def shape : Entry → Entry
  | file _ => file (.text "")
  | link target => link target
  | directory entries => directory (shapes entries)

def shapes : List (ByteString × Entry) → List (ByteString × Entry)
  | [] => []
  | (name, e) :: es => (name, e.shape) :: shapes es

end

theorem lookup_shapes (name : ByteString) (es : List (ByteString × Entry)) :
    (shapes es).lookup name = (es.lookup name).map shape := by
  induction es with
  | nil => rfl
  | cons x es ih =>
    obtain ⟨n, e⟩ := x
    simp only [shapes, List.lookup_cons]
    cases name == n with
    | true => rfl
    | false => exact ih

theorem get?_shape (e : Entry) (place : Place) : e.shape.get? place = (e.get? place).map shape := by
  induction place generalizing e with
  | nil => simp [get?]
  | cons name place ih =>
    cases e with
    | file c => rfl
    | link target => rfl
    | directory es =>
      simp only [shape, get?, lookup_shapes]
      cases es.lookup name with
      | none => rfl
      | some e => exact ih e

section

variable {root other : Entry} {here : Place} {path : ByteString}

theorem walkWith_shape (root : Entry) (follow : Place → List ByteString → Except AccessError Place)
    (here : Place) (steps : List ByteString) :
    walkWith root.shape follow here steps = walkWith root follow here steps := by
  induction steps generalizing here with
  | nil => rfl
  | cons step rest ih =>
    simp only [walkWith, get?_shape]
    cases root.get? here with
    | none => rfl
    | some e =>
      cases e with
      | file c => rfl
      | link target => rfl
      | directory es =>
        simp only [Option.map_some, shape, lookup_shapes, ih]
        cases es.lookup step with
        | none => rfl
        | some e => cases e <;> rfl

theorem walk_shape (root : Entry) (links : ℕ) : walk root.shape links = walk root links := by
  induction links with
  | zero =>
    funext here steps
    exact walkWith_shape root _ here steps
  | succ links ih =>
    funext here steps
    rw [walk, walk, ih]
    exact walkWith_shape root _ here steps

theorem resolve_congr (h : root.shape = other.shape) :
    root.resolve here path = other.resolve here path := by
  rw [resolve, resolve, ← walk_shape root, ← walk_shape other, h]

theorem get?_congr (h : root.shape = other.shape) (place : Place) :
    (root.get? place).map shape = (other.get? place).map shape := by
  rw [← get?_shape, ← get?_shape, h]

theorem find?_congr (h : root.shape = other.shape) :
    (root.find? here path).map shape = (other.find? here path).map shape := by
  rw [find?, find?, resolve_congr h]
  cases other.resolve here path with
  | error e => rfl
  | ok place => exact get?_congr h place

theorem find?_eq_some {e : Entry} (h : root.find? here path = some e) :
    ∃ base, root.resolve here path = .ok base ∧ root.get? base = some e := by
  unfold find? at h
  cases hresolve : root.resolve here path with
  | error err => simp [hresolve] at h
  | ok base => exact ⟨base, rfl, by simpa [hresolve] using h⟩

theorem isFile_shape (e : Entry) : e.shape.isFile = e.isFile := by
  cases e <;> rfl

theorem holdsFile_congr (h : root.shape = other.shape) :
    root.holdsFile here path = other.holdsFile here path := by
  have hany : ∀ found : Option Entry, (found.map shape).any isFile = found.any isFile := by
    rintro (_ | e)
    · rfl
    · exact isFile_shape e
  rw [holdsFile, holdsFile, ← hany, ← hany (other.find? here path), find?_congr h]

end

end Entry

/-! ### Writing -/

namespace Entry

theorem lookup_alter_self (name : ByteString) (change : Option Entry → Entry)
    (es : List (ByteString × Entry)) :
    (alter name change es).lookup name = some (change (es.lookup name)) := by
  induction es with
  | nil => simp [alter]
  | cons x es ih =>
    obtain ⟨n, e⟩ := x
    by_cases hn : n = name
    · simp [alter, hn]
    · have hbeq : (name == n) = false := by simpa using Ne.symm hn
      simp [alter, hn, List.lookup_cons, hbeq, ih]

theorem lookup_alter_of_ne {name other : ByteString} (h : other ≠ name)
    (change : Option Entry → Entry) (es : List (ByteString × Entry)) :
    (alter name change es).lookup other = es.lookup other := by
  have hbeq : (other == name) = false := by simpa using h
  induction es with
  | nil => simp [alter, List.lookup_cons, hbeq]
  | cons x es ih =>
    obtain ⟨n, e⟩ := x
    by_cases hn : n = name
    · simp [alter, hn, List.lookup_cons, hbeq]
    · simp [alter, hn, List.lookup_cons, ih]

theorem shapes_alter {name : ByteString} {change : Option Entry → Entry}
    {es : List (ByteString × Entry)} {e : Entry} (he : es.lookup name = some e)
    (h : (change (some e)).shape = e.shape) :
    shapes (alter name change es) = shapes es := by
  induction es with
  | nil => simp at he
  | cons x es ih =>
    obtain ⟨n, e'⟩ := x
    by_cases hn : n = name
    · obtain rfl : e' = e := by simpa [hn] using he
      simp [alter, hn, shapes, h]
    · have hbeq : (name == n) = false := by simpa using Ne.symm hn
      have he' : es.lookup name = some e := by simpa [List.lookup_cons, hbeq] using he
      simp [alter, hn, shapes, ih he']

theorem get?_put_self (new : Entry) (place : Place) (old : Option Entry) :
    (put new place old).get? place = some new := by
  induction place generalizing old with
  | nil => rfl
  | cons name place ih =>
    rcases old with _ | e
    · simp [put, get?, lookup_alter_self, ih]
    · cases e <;> simp [put, get?, lookup_alter_self, ih]

variable {root other : Entry} {here place : Place} {path : ByteString} {text : String}

theorem exists_entry {e : Entry} {name : ByteString} (h : root.get? (name :: place) = some e) :
    ∃ es next, root = directory es ∧ es.lookup name = some next ∧ next.get? place = some e := by
  cases root with
  | file c => simp [get?] at h
  | link target => simp [get?] at h
  | directory es =>
    cases hnext : es.lookup name with
    | none => simp [get?, hnext] at h
    | some next => exact ⟨es, next, rfl, hnext, by simpa [get?, hnext] using h⟩

theorem shape_put {c d : Content} (h : root.get? place = some (file c)) :
    (put (file d) place (some root)).shape = root.shape := by
  induction place generalizing root with
  | nil =>
    obtain rfl : root = file c := by simpa [get?] using h
    rfl
  | cons name place ih =>
    obtain ⟨es, next, rfl, hnext, hget⟩ := exists_entry h
    simp only [put, shape, shapes_alter hnext (ih hget)]

/-- Writing to a file leaves all other files as they are. -/
theorem get?_put_of_ne {other : Place} {new : Entry} {c d : Content}
    (h : root.get? place = some (file c)) (hother : root.get? other = some (file d))
    (hne : other ≠ place) : (put new place (some root)).get? other = some (file d) := by
  induction place generalizing root other with
  | nil =>
    obtain rfl : root = file c := by simpa [get?] using h
    cases other with
    | nil => exact absurd rfl hne
    | cons name other => simp [get?] at hother
  | cons name place ih =>
    obtain ⟨es, next, rfl, hnext, hget⟩ := exists_entry h
    cases other with
    | nil => simp [get?] at hother
    | cons name' other =>
      obtain ⟨es', next', hes, hnext', hget'⟩ := exists_entry hother
      obtain rfl : es = es' := by simpa using hes
      by_cases hname : name' = name
      · subst hname
        obtain rfl : next = next' := Option.some.inj (hnext.symm.trans hnext')
        have hrest := ih hget hget' (by simpa using hne)
        simpa [put, get?, lookup_alter_self, hnext] using hrest
      · simpa [put, get?, lookup_alter_of_ne hname, hnext'] using hget'

/-- A path leads to a file at a place. -/
def LeadsTo (root : Entry) (here : Place) (path : ByteString) (place : Place) : Prop :=
  root.resolve here path = .ok place ∧ ∃ c, root.get? place = some (file c)

theorem LeadsTo.unique {place' : Place} (h : root.LeadsTo here path place)
    (h' : root.LeadsTo here path place') : place = place' :=
  Except.ok.inj (h.1.symm.trans h'.1)

theorem LeadsTo.congr (hshape : root.shape = other.shape) (h : root.LeadsTo here path place) :
    other.LeadsTo here path place := by
  obtain ⟨hresolve, c, hget⟩ := h
  refine ⟨by rw [← resolve_congr hshape, hresolve], ?_⟩
  have hplace := get?_congr hshape place
  rw [hget] at hplace
  cases hother : other.get? place with
  | none => simp [hother] at hplace
  | some e =>
    cases e with
    | file d => exact ⟨d, rfl⟩
    | link target => simp [hother, shape] at hplace
    | directory es => simp [hother, shape] at hplace

theorem LeadsTo.shape_write (h : root.LeadsTo here path place) (content : Content) :
    (root.write here path content).shape = root.shape := by
  obtain ⟨hresolve, c, hget⟩ := h
  simp only [write, hresolve, shape_put hget]

theorem LeadsTo.get?_write (h : root.LeadsTo here path place) (content : Content) :
    (root.write here path content).get? place = some (file content) := by
  simp only [write, h.1, get?_put_self]

theorem LeadsTo.get?_write_of_ne {other : Place} {c : Content} (h : root.LeadsTo here path place)
    (content : Content) (hother : root.get? other = some (file c)) (hne : other ≠ place) :
    (root.write here path content).get? other = some (file c) := by
  obtain ⟨hresolve, d, hget⟩ := h
  simp only [write, hresolve, get?_put_of_ne hget hother hne]

theorem read_eq_ok_iff : root.read here path = .ok text ↔
    ∃ place, root.resolve here path = .ok place ∧ root.get? place = some (file (.text text)) := by
  unfold read
  cases root.resolve here path with
  | error e => simp
  | ok place =>
    simp only [Except.ok.injEq, exists_eq_left']
    rcases hget : root.get? place with _ | e
    · simp
    · cases e with
      | file c => cases c <;> simp
      | link target => simp
      | directory es => simp

theorem leadsTo_of_read (h : root.read here path = .ok text) :
    ∃ place, root.LeadsTo here path place := by
  obtain ⟨place, hresolve, hget⟩ := read_eq_ok_iff.mp h
  exact ⟨place, hresolve, _, hget⟩

theorem LeadsTo.read_congr {path' : ByteString} (h : root.LeadsTo here path place)
    (h' : other.LeadsTo here path' place) (hget : root.get? place = other.get? place) :
    root.read here path = other.read here path' := by
  simp only [read, h.1, h'.1, hget]

end Entry

end Files

namespace Command

open Files Files.Entry

variable {tree : Entry} {here place : Place} {writes : List (ByteString × Content)}

theorem applyWrites_cons (here : Place) (w : ByteString × Content)
    (writes : List (ByteString × Content)) (tree : Entry) :
    applyWrites here (w :: writes) tree = applyWrites here writes (tree.write here w.1 w.2) := rfl

theorem applyWrites_append (here : Place) (writes writes' : List (ByteString × Content))
    (tree : Entry) :
    applyWrites here (writes ++ writes') tree =
      applyWrites here writes' (applyWrites here writes tree) :=
  List.foldl_append

theorem forall_leadsTo_write {w : ByteString × Content}
    (h : ∀ v ∈ w :: writes, ∃ place, tree.LeadsTo here v.1 place) :
    ∀ v ∈ writes, ∃ place, (tree.write here w.1 w.2).LeadsTo here v.1 place := by
  obtain ⟨⟨place, hw⟩, hrest⟩ := List.forall_mem_cons.mp h
  intro v hv
  obtain ⟨place', hv⟩ := hrest v hv
  exact ⟨place', hv.congr (hw.shape_write w.2).symm⟩

theorem applyWrites_shape (h : ∀ w ∈ writes, ∃ place, tree.LeadsTo here w.1 place) :
    (applyWrites here writes tree).shape = tree.shape := by
  induction writes generalizing tree with
  | nil => rfl
  | cons w writes ih =>
    obtain ⟨place, hw⟩ := h w (by simp)
    rw [applyWrites_cons, ih (forall_leadsTo_write h), hw.shape_write]

/-- A file to which no write leads keeps what it holds. -/
theorem get?_applyWrites_of_not_leadsTo {c : Content}
    (h : ∀ w ∈ writes, ∃ place, tree.LeadsTo here w.1 place)
    (hget : tree.get? place = some (.file c)) (hother : ∀ w ∈ writes, ¬tree.LeadsTo here w.1 place) :
    (applyWrites here writes tree).get? place = some (.file c) := by
  induction writes generalizing tree with
  | nil => exact hget
  | cons w writes ih =>
    obtain ⟨place', hw⟩ := h w (by simp)
    obtain ⟨hfirst, hrest⟩ := List.forall_mem_cons.mp hother
    have hne : place ≠ place' := by
      rintro rfl
      exact hfirst hw
    rw [applyWrites_cons]
    refine ih (forall_leadsTo_write h) (hw.get?_write_of_ne w.2 hget hne) ?_
    exact fun v hv hleads => hrest v hv (hleads.congr (hw.shape_write w.2))

/-- A file to which writes lead gets the content that they agree on. -/
theorem get?_applyWrites {w : ByteString × Content}
    (h : ∀ v ∈ writes, ∃ place, tree.LeadsTo here v.1 place) (hw : w ∈ writes)
    (hleads : tree.LeadsTo here w.1 place)
    (hagree : ∀ v ∈ writes, tree.LeadsTo here v.1 place → v.2 = w.2) :
    (applyWrites here writes tree).get? place = some (.file w.2) := by
  induction writes generalizing tree w with
  | nil => simp at hw
  | cons v writes ih =>
    obtain ⟨place', hv⟩ := h v (by simp)
    have hshape := hv.shape_write v.2
    rw [applyWrites_cons]
    -- the last write to the place decides, so look for another one behind this one
    by_cases hlater : ∃ u ∈ writes, tree.LeadsTo here u.1 place
    · obtain ⟨u, hu, huleads⟩ := hlater
      have hrest := ih (forall_leadsTo_write h) hu (huleads.congr hshape.symm) fun x hx hxleads =>
        (hagree x (by simp [hx]) (hxleads.congr hshape)).trans
          (hagree u (by simp [hu]) huleads).symm
      rwa [hagree u (by simp [hu]) huleads] at hrest
    · obtain rfl | hmem := List.mem_cons.mp hw
      · obtain rfl := hv.unique hleads
        refine get?_applyWrites_of_not_leadsTo (forall_leadsTo_write h) (hv.get?_write w.2) ?_
        exact fun u hu huleads => hlater ⟨u, hu, huleads.congr hshape⟩
      · exact absurd ⟨w, hmem, hleads⟩ hlater

end Command

namespace Files

open ByteString (slash)

/-! ### Names and paths -/

theorem splitSlashes_ne_nil (path : ByteString) : splitSlashes path ≠ [] := by
  fun_cases splitSlashes path <;> simp

theorem splitSlashes_append (front back : ByteString) :
    splitSlashes (front ++ slash :: back) = splitSlashes front ++ splitSlashes back := by
  induction front with
  | nil => simp [splitSlashes]
  | cons b front ih =>
    by_cases hb : b = slash
    · simp [splitSlashes, hb, ih]
    · obtain ⟨part, parts, hparts⟩ := List.exists_cons_of_ne_nil (splitSlashes_ne_nil front)
      simp [splitSlashes, hb, ih, hparts]

theorem splitSlashes_of_notMem {name : ByteString} (h : slash ∉ name) :
    splitSlashes name = [name] := by
  induction name with
  | nil => rfl
  | cons b name ih =>
    obtain ⟨hb, hrest⟩ := not_or.mp (mt List.mem_cons.mpr h)
    simp [splitSlashes, Ne.symm hb, ih hrest]

/-- The stretches of a path that name something. -/
def asked (path : ByteString) : List ByteString := (splitSlashes path).filter (· ≠ [])

theorem steps_eq (path : ByteString) :
    steps path = asked path ∨ steps path = asked path ++ [ByteString.ofString "."] := by
  unfold steps asked
  dsimp only
  split
  · exact Or.inr rfl
  · exact Or.inl rfl

def IsName (name : ByteString) : Prop := name ≠ [] ∧ slash ∉ name

instance isNameDecidable (name : ByteString) : Decidable (IsName name) :=
  inferInstanceAs (Decidable (_ ∧ _))

theorem split_join (dir : ByteString) {name : ByteString} (hname : IsName name) :
    ∃ front, splitSlashes (join dir name) = front ++ [name] ∧
      front.filter (· ≠ []) = asked dir := by
  have hlast := splitSlashes_of_notMem hname.2
  by_cases hslash : dir.getLast? = some slash
  · obtain ⟨front, rfl⟩ := List.getLast?_eq_some_iff.mp hslash
    refine ⟨splitSlashes front, ?_, ?_⟩
    · rw [join, if_pos hslash, List.append_assoc]
      simp [splitSlashes_append, hlast]
    · have hempty : splitSlashes [] = [[]] := rfl
      rw [asked, splitSlashes_append, hempty, List.filter_append]
      simp
  · refine ⟨splitSlashes dir, ?_, rfl⟩
    rw [join, if_neg hslash, splitSlashes_append, hlast]

theorem steps_join {dir name : ByteString} (hname : IsName name) :
    steps (join dir name) = asked dir ++ [name] := by
  obtain ⟨front, hparts, hfront⟩ := split_join dir hname
  have hlast : (front ++ [name]).getLast? ≠ some [] := by simpa using hname.1
  rw [steps, hparts]
  simp only [hlast, decide_false, Bool.and_false, Bool.false_eq_true, if_false, List.filter_append,
    hfront]
  simp [hname.1]

theorem names_eq_filter (path : ByteString) :
    names path = (asked path).filter (· ≠ ByteString.ofString ".") := by
  obtain hsteps | hsteps := steps_eq path <;> simp [names, hsteps]

theorem asked_join {dir name : ByteString} (hname : IsName name) :
    asked (join dir name) = asked dir ++ [name] := by
  obtain ⟨front, hparts, hfront⟩ := split_join dir hname
  rw [asked, hparts, List.filter_append, hfront]
  simp [hname.1]

theorem isAbsolute_join {dir name : ByteString} (hdir : dir ≠ []) :
    isAbsolute (join dir name) = isAbsolute dir := by
  obtain ⟨b, rest, rfl⟩ := List.exists_cons_of_ne_nil hdir
  unfold join isAbsolute
  split <;> simp

theorem join_ne_nil {dir name : ByteString} (hdir : dir ≠ []) : join dir name ≠ [] := by
  unfold join
  split <;> simp [hdir]

/-! ### Walking on -/

namespace Entry

variable {root : Entry} {here place : Place} {path : ByteString}

theorem get?_append {e : Entry} {place' : Place} (h : root.get? place = some e) :
    root.get? (place ++ place') = e.get? place' := by
  induction place generalizing root with
  | nil =>
    obtain rfl : root = e := by simpa [get?] using h
    rfl
  | cons name place ih =>
    obtain ⟨es, next, rfl, hnext, hget⟩ := exists_entry h
    simpa [get?, hnext] using ih hget

def isLink : Entry → Bool
  | link _ => true
  | _ => false

section

variable {follow : Place → List ByteString → Except AccessError Place} {step : ByteString}
  {xs : List ByteString}

/-- A walk takes its first step in a directory: it stays, goes up, goes down, or follows a link. -/
theorem walkWith_cons_eq_ok_iff :
    walkWith root follow here (step :: xs) = .ok place ↔
      ∃ es, root.get? here = some (directory es) ∧
        (step = "." ∧ walkWith root follow here xs = .ok place ∨
          step = ".." ∧ walkWith root follow here.dropLast xs = .ok place ∨
          step ≠ "." ∧ step ≠ ".." ∧ ∃ e, es.lookup step = some e ∧
            (e.isLink = false ∧ walkWith root follow (here ++ [step]) xs = .ok place ∨
              ∃ target, e = link target ∧
                follow (if isAbsolute target then [] else here) (steps target ++ xs) =
                  .ok place)) := by
  rw [walkWith]
  cases root.get? here with
  | none => simp
  | some found =>
    cases found with
    | file c => simp
    | link target => simp
    | directory es =>
      simp only [Option.some.injEq, directory.injEq, exists_eq_left']
      by_cases hdot : step = "."
      · simp [hdot]
      · by_cases hup : step = ".."
        · simp [hup]
        · simp only [hdot, hup, if_false, false_and, false_or, ne_eq, not_false_eq_true, true_and]
          cases es.lookup step with
          | none => simp
          | some e => cases e <;> simp [isLink]

/-- Walks that share their first step lead where they should if they do so behind it. -/
theorem walkWith_cons_imp {follow' : Place → List ByteString → Except AccessError Place}
    {place' : Place} {ys : List ByteString}
    (hrest : ∀ here, walkWith root follow here xs = .ok place →
      walkWith root follow' here ys = .ok place')
    (hfollow : ∀ here steps, follow here (steps ++ xs) = .ok place →
      follow' here (steps ++ ys) = .ok place')
    (h : walkWith root follow here (step :: xs) = .ok place) :
    walkWith root follow' here (step :: ys) = .ok place' := by
  obtain ⟨es, hhere, hcases⟩ := walkWith_cons_eq_ok_iff.mp h
  refine walkWith_cons_eq_ok_iff.mpr ⟨es, hhere, ?_⟩
  obtain ⟨hstep, hwalk⟩ | ⟨hstep, hwalk⟩ | ⟨hne, hne', e, hlookup, hnext⟩ := hcases
  · exact Or.inl ⟨hstep, hrest _ hwalk⟩
  · exact Or.inr (Or.inl ⟨hstep, hrest _ hwalk⟩)
  · refine Or.inr (Or.inr ⟨hne, hne', e, hlookup, ?_⟩)
    obtain ⟨hlink, hdown⟩ | ⟨target, rfl, htarget⟩ := hnext
    · exact Or.inl ⟨hlink, hrest _ hdown⟩
    · exact Or.inr ⟨target, rfl, hfollow _ _ htarget⟩

/-- A walk goes on from the directory in which it ends. -/
theorem walkWith_append {name : ByteString} {es : List (ByteString × Entry)} {e : Entry}
    (hplace : root.get? place = some (directory es)) (hnext : es.lookup name = some e)
    (hlink : e.isLink = false) (hdot : name ≠ ".") (hup : name ≠ "..")
    (hfollow : ∀ here steps, follow here steps = .ok place →
      follow here (steps ++ [name]) = .ok (place ++ [name]))
    (h : walkWith root follow here xs = .ok place) :
    walkWith root follow here (xs ++ [name]) = .ok (place ++ [name]) := by
  induction xs generalizing here with
  | nil =>
    obtain rfl : here = place := by simpa [walkWith] using h
    exact walkWith_cons_eq_ok_iff.mpr
      ⟨es, hplace, Or.inr (Or.inr ⟨hdot, hup, e, hnext, Or.inl ⟨hlink, rfl⟩⟩)⟩
  | cons step xs ih =>
    refine walkWith_cons_imp (fun _ hrest => ih hrest) (fun here steps htarget => ?_) h
    have hmore := hfollow here (steps ++ xs) htarget
    rw [List.append_assoc] at hmore
    exact hmore

/-- A step that stays in its directory can be left out at the end of a walk. -/
theorem walkWith_of_append_dot
    (hfollow : ∀ here steps, follow here (steps ++ [ByteString.ofString "."]) = .ok place →
      follow here steps = .ok place)
    (h : walkWith root follow here (xs ++ [ByteString.ofString "."]) = .ok place) :
    walkWith root follow here xs = .ok place := by
  induction xs generalizing here with
  | nil =>
    obtain ⟨es, -, ⟨-, hstay⟩ | ⟨hup, -⟩ | ⟨hne, -⟩⟩ := walkWith_cons_eq_ok_iff.mp h
    · exact hstay
    · exact absurd hup (by decide)
    · exact absurd rfl hne
  | cons step xs ih =>
    refine walkWith_cons_imp (fun _ hrest => ih hrest) (fun here steps htarget => ?_) h
    rw [← List.append_assoc] at htarget
    exact hfollow here (steps ++ xs) htarget

end

theorem walk_append {name : ByteString} {es : List (ByteString × Entry)} {e : Entry}
    (hplace : root.get? place = some (directory es)) (hnext : es.lookup name = some e)
    (hlink : e.isLink = false) (hdot : name ≠ ".") (hup : name ≠ "..") (links : ℕ)
    {xs : List ByteString} (h : walk root links here xs = .ok place) :
    walk root links here (xs ++ [name]) = .ok (place ++ [name]) := by
  induction links generalizing here xs with
  | zero => exact walkWith_append hplace hnext hlink hdot hup (by simp) h
  | succ links ih => exact walkWith_append hplace hnext hlink hdot hup (fun _ _ h => ih h) h

theorem walk_of_append_dot (links : ℕ) {xs : List ByteString}
    (h : walk root links here (xs ++ [ByteString.ofString "."]) = .ok place) :
    walk root links here xs = .ok place := by
  induction links generalizing here xs with
  | zero => exact walkWith_of_append_dot (by simp) h
  | succ links ih => exact walkWith_of_append_dot (fun _ _ h => ih h) h

/-- The path of a name in a directory leads to the entry under that name. -/
theorem resolve_join {name : ByteString} {es : List (ByteString × Entry)} {e : Entry}
    (h : root.resolve here path = .ok place) (hplace : root.get? place = some (directory es))
    (hnext : es.lookup name = some e) (hlink : e.isLink = false) (hname : IsName name)
    (hdot : name ≠ ".") (hup : name ≠ "..") :
    root.resolve here (join path name) = .ok (place ++ [name]) := by
  have hpath : path ≠ [] := by
    rintro rfl
    simp [resolve] at h
  rw [resolve, if_neg hpath] at h
  rw [resolve, if_neg (join_ne_nil hpath), isAbsolute_join hpath, steps_join hname]
  apply walk_append hplace hnext hlink hdot hup
  obtain hsteps | hsteps := steps_eq path
  · rwa [hsteps] at h
  · rw [hsteps] at h
    exact walk_of_append_dot _ h

mutual

/-- All names in a tree are names, and no directory has one of them twice. -/
def isNamed : Entry → Bool
  | file _ => true
  | link _ => true
  | directory entries =>
    entries.all (IsName ·.1) && (entries.map Prod.fst).Nodup && areNamed entries

def areNamed : List (ByteString × Entry) → Bool
  | [] => true
  | (_, e) :: es => e.isNamed && areNamed es

end

theorem areNamed_iff {es : List (ByteString × Entry)} :
    areNamed es = true ↔ ∀ x ∈ es, x.2.isNamed = true := by
  induction es with
  | nil => simp [areNamed]
  | cons x es ih => simp [areNamed, ih]

theorem isNamed_directory_iff {es : List (ByteString × Entry)} :
    (directory es).isNamed = true ↔
      (∀ x ∈ es, IsName x.1) ∧ (es.map Prod.fst).Nodup ∧ ∀ x ∈ es, x.2.isNamed = true := by
  rw [isNamed, Bool.and_eq_true, Bool.and_eq_true, areNamed_iff]
  simp [and_assoc]

theorem lookup_of_mem {es : List (ByteString × Entry)} (hnodup : (es.map Prod.fst).Nodup)
    {name : ByteString} {e : Entry} (h : (name, e) ∈ es) : es.lookup name = some e := by
  induction es with
  | nil => simp at h
  | cons x es ih =>
    obtain ⟨hnot, hrest⟩ := List.nodup_cons.mp hnodup
    obtain rfl | hmem := List.mem_cons.mp h
    · simp
    · have hbeq : (name == x.1) = false := by
        rw [beq_eq_false_iff_ne]
        rintro rfl
        exact hnot (List.mem_map.mpr ⟨_, hmem, rfl⟩)
      rw [List.lookup_cons, hbeq]
      exact ih hrest hmem

theorem isNamed_of_get? {root e : Entry} {place : Place} (h : root.isNamed = true)
    (hget : root.get? place = some e) : e.isNamed = true := by
  induction place generalizing root with
  | nil =>
    obtain rfl : root = e := by simpa [get?] using hget
    exact h
  | cons name place ih =>
    obtain ⟨es, next, rfl, hnext, hrest⟩ := exists_entry hget
    obtain ⟨front, back, rfl, -⟩ := List.lookup_eq_some_iff.mp hnext
    exact ih ((isNamed_directory_iff.mp h).2.2 (name, next) (by simp)) hrest

theorem isName_of_get? {root e : Entry} {place : Place} (hnamed : root.isNamed = true)
    (h : root.get? place = some e) : ∀ name ∈ place, IsName name := by
  induction place generalizing root with
  | nil => simp
  | cons name place ih =>
    obtain ⟨es, next, rfl, hnext, hrest⟩ := exists_entry h
    obtain ⟨hnames, -, hbelow⟩ := isNamed_directory_iff.mp hnamed
    obtain ⟨front, back, rfl, -⟩ := List.lookup_eq_some_iff.mp hnext
    have hmem : (name, next) ∈ front ++ (name, next) :: back := by simp
    exact List.forall_mem_cons.mpr ⟨hnames _ hmem, ih (hbelow _ hmem) hrest⟩

end Entry

end Files
end CastLint

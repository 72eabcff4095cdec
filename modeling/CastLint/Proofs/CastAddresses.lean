import CastLint.Proofs.Walks
import Mathlib.Data.List.Pairwise
import Mathlib.Tactic.MkIffOfInductiveProp

/-! Where the casts of trees stand. An address tells which tree to take, and then which part at each
step. A walk meets casts in the order of their addresses, and a cast lies inside another exactly if
its address goes on where that of the other ends. -/

namespace CastLint
namespace Syntax

def Node.at? : List ℕ → Node → Option Node
  | [], n => some n
  | i :: address, n => n.parts[i]?.bind (Node.at? address)

def castAt? (nodes : List Node) : List ℕ → Option Cast
  | [] => none
  | i :: address => (nodes[i]?.bind (Node.at? address)).bind Node.cast?

mutual

def Node.addressed : Node → List (List ℕ × Cast)
  | .mk kind span parts =>
    (Node.mk kind span parts).cast?.toList.map ([], ·) ++ addressedFrom 0 parts

/-- The casts of trees with their addresses. The first tree has the number `i`. -/
def addressedFrom : ℕ → List Node → List (List ℕ × Cast)
  | _, [] => []
  | i, n :: ns => n.addressed.map (fun x => (i :: x.1, x.2)) ++ addressedFrom (i + 1) ns

end

mutual

theorem Node.map_snd_addressed (n : Node) : n.addressed.map Prod.snd = casts [n] := by
  obtain ⟨kind, span, parts⟩ := n
  rw [Node.addressed, List.map_append, map_snd_addressedFrom, casts_mk, List.map_map]
  congr 1
  exact List.map_id _

theorem map_snd_addressedFrom (i : ℕ) (nodes : List Node) :
    (addressedFrom i nodes).map Prod.snd = casts nodes := by
  cases nodes with
  | nil => rfl
  | cons n nodes =>
    rw [addressedFrom, List.map_append, map_snd_addressedFrom, List.map_map, casts_cons,
      ← Node.map_snd_addressed n]
    rfl

end

mutual

theorem Node.mem_addressed_iff (n : Node) {address : List ℕ} {cast : Cast} :
    (address, cast) ∈ n.addressed ↔ (n.at? address).bind Node.cast? = some cast := by
  obtain ⟨kind, span, parts⟩ := n
  rw [Node.addressed, List.mem_append, mem_addressedFrom_iff]
  cases address with
  | nil => simp [Node.at?]
  | cons i address => simp [Node.at?, Node.parts, castAt?, and_assoc]

theorem mem_addressedFrom_iff (i : ℕ) (nodes : List Node) {address : List ℕ} {cast : Cast} :
    (address, cast) ∈ addressedFrom i nodes ↔
      ∃ k rest, address = (i + k) :: rest ∧ castAt? nodes (k :: rest) = some cast := by
  cases nodes with
  | nil => simp [addressedFrom, castAt?]
  | cons n nodes =>
    have hfirst : (address, cast) ∈ n.addressed.map (fun x => (i :: x.1, x.2)) ↔
        ∃ rest, address = i :: rest ∧ castAt? (n :: nodes) (0 :: rest) = some cast := by
      simp only [List.mem_map, Prod.exists, Prod.mk.injEq, castAt?, List.getElem?_cons_zero,
        Option.bind_some, ← n.mem_addressed_iff]
      constructor
      · rintro ⟨rest, c, hmem, rfl, rfl⟩
        exact ⟨rest, rfl, hmem⟩
      · rintro ⟨rest, rfl, hmem⟩
        exact ⟨rest, cast, hmem, rfl, rfl⟩
    rw [addressedFrom, List.mem_append, mem_addressedFrom_iff, hfirst]
    constructor
    · rintro (⟨rest, rfl, hcast⟩ | ⟨k, rest, rfl, hcast⟩)
      · exact ⟨0, rest, rfl, hcast⟩
      · exact ⟨k + 1, rest, by rw [Nat.add_right_comm, Nat.add_assoc], hcast⟩
    · rintro ⟨_ | k, rest, rfl, hcast⟩
      · exact Or.inl ⟨rest, rfl, hcast⟩
      · exact Or.inr ⟨k, rest, by rw [Nat.add_right_comm, Nat.add_assoc], hcast⟩

end

def addressed (nodes : List Node) : List (List ℕ × Cast) := addressedFrom 0 nodes

theorem map_snd_addressed (nodes : List Node) : (addressed nodes).map Prod.snd = casts nodes :=
  map_snd_addressedFrom 0 nodes

theorem mem_addressed_iff {nodes : List Node} {address : List ℕ} {cast : Cast} :
    (address, cast) ∈ addressed nodes ↔ castAt? nodes address = some cast := by
  rw [addressed, mem_addressedFrom_iff]
  cases address with
  | nil => simp [castAt?]
  | cons i rest => simp [and_assoc]

/-! ### Pairs of casts -/

section

variable {S T : Cast → Cast → Prop}

/-- The first address comes before the second. The casts are related by `S` if the second lies below
the first, and else by `T`. -/
def Follows (S T : Cast → Cast → Prop) (x y : List ℕ × Cast) : Prop :=
  x.1 < y.1 ∧ if x.1 <+: y.1 then S x.2 y.2 else T x.2 y.2

/-- Casts of different trees are related, those of an earlier tree to those of a later one. -/
def Across (T : Cast → Cast → Prop) (nodes : List Node) : Prop :=
  nodes.Pairwise fun n m => ∀ c ∈ casts [n], ∀ d ∈ casts [m], T c d

/-- A cast is related by `S` to those inside it, and those in different parts of a node by `T`. -/
def Node.Relates (S T : Cast → Cast → Prop) (n : Node) : Prop :=
  (∀ c ∈ n.cast?, ∀ d ∈ casts n.parts, S c d) ∧ Across T n.parts

theorem casts_eq_flatMap (nodes : List Node) : casts nodes = nodes.flatMap fun n => casts [n] := by
  induction nodes with
  | nil => rfl
  | cons n nodes ih => rw [casts_cons, ih, List.flatMap_cons]

theorem across_cons {n : Node} {nodes : List Node} :
    Across T (n :: nodes) ↔ (∀ c ∈ casts [n], ∀ d ∈ casts nodes, T c d) ∧ Across T nodes := by
  rw [Across, List.pairwise_cons, casts_eq_flatMap nodes]
  refine and_congr_left fun _ => ?_
  simp only [List.mem_flatMap]
  constructor
  · rintro h c hc d ⟨m, hm, hd⟩
    exact h m hm c hc d hd
  · intro h m hm c hc d hd
    exact h c hc d ⟨m, hm, hd⟩

theorem exists_cons_of_mem {i : ℕ} {nodes : List Node} {x : List ℕ × Cast}
    (h : x ∈ addressedFrom i nodes) : ∃ j rest, i ≤ j ∧ x.1 = j :: rest := by
  obtain ⟨k, rest, haddress, -⟩ := (mem_addressedFrom_iff i nodes).mp h
  exact ⟨i + k, rest, Nat.le_add_right i k, haddress⟩

theorem follows_cons {i : ℕ} {x y : List ℕ × Cast} :
    Follows S T (i :: x.1, x.2) (i :: y.1, y.2) ↔ Follows S T x y := by
  simp [Follows]

theorem follows_below {i : ℕ} {nodes : List Node} {c : Cast} :
    (∀ x ∈ addressedFrom i nodes, Follows S T ([], c) x) ↔ ∀ d ∈ casts nodes, S c d := by
  rw [← map_snd_addressedFrom i nodes, List.forall_mem_map]
  refine forall₂_congr fun x hx => ?_
  obtain ⟨j, rest, -, haddress⟩ := exists_cons_of_mem hx
  simp [Follows, haddress]

theorem follows_across {i : ℕ} {n : Node} {nodes : List Node} :
    (∀ x ∈ n.addressed, ∀ y ∈ addressedFrom (i + 1) nodes, Follows S T (i :: x.1, x.2) y) ↔
      ∀ c ∈ casts [n], ∀ d ∈ casts nodes, T c d := by
  rw [← n.map_snd_addressed, ← map_snd_addressedFrom (i + 1) nodes, List.forall_mem_map]
  refine forall₂_congr fun x _ => ?_
  rw [List.forall_mem_map]
  refine forall₂_congr fun y hy => ?_
  obtain ⟨j, rest, hle, haddress⟩ := exists_cons_of_mem hy
  have hne : i ≠ j := by omega
  have hlt : i < j := by omega
  simp [Follows, haddress, List.cons_lt_cons_iff, hne, hlt]

mutual

theorem Node.pairwise_addressed_iff (n : Node) :
    n.addressed.Pairwise (Follows S T) ↔ ∀ m ∈ n.preorder, m.Relates S T := by
  obtain ⟨kind, span, parts⟩ := n
  have hself : ((Node.mk kind span parts).cast?.toList.map fun c => (([] : List ℕ), c)).Pairwise
      (Follows S T) := by
    cases (Node.mk kind span parts).cast? <;> simp
  rw [Node.addressed, List.pairwise_append, pairwise_addressedFrom_iff, List.forall_mem_map,
    Node.preorder, List.forall_mem_cons, Node.Relates]
  simp only [follows_below, Option.mem_toList, hself, true_and]
  constructor
  · rintro ⟨⟨hbelow, hacross⟩, hinside⟩
    exact ⟨⟨hinside, hacross⟩, hbelow⟩
  · rintro ⟨⟨hinside, hacross⟩, hbelow⟩
    exact ⟨⟨hbelow, hacross⟩, hinside⟩

theorem pairwise_addressedFrom_iff (i : ℕ) (nodes : List Node) :
    (addressedFrom i nodes).Pairwise (Follows S T) ↔
      (∀ m ∈ Node.preorderAll nodes, m.Relates S T) ∧ Across T nodes := by
  cases nodes with
  | nil => simp [addressedFrom, Node.preorderAll, Across]
  | cons n nodes =>
    rw [addressedFrom, List.pairwise_append, List.pairwise_map, pairwise_addressedFrom_iff,
      List.forall_mem_map, follows_across, Node.preorderAll, List.forall_mem_append, across_cons]
    simp only [follows_cons, n.pairwise_addressed_iff]
    constructor
    · rintro ⟨hn, ⟨hnodes, hacross⟩, hfirst⟩
      exact ⟨⟨hn, hnodes⟩, hfirst, hacross⟩
    · rintro ⟨⟨hn, hnodes⟩, hfirst, hacross⟩
      exact ⟨hn, ⟨hnodes, hacross⟩, hfirst⟩

end

theorem pairwise_addressed_iff {nodes : List Node} :
    (addressed nodes).Pairwise (Follows S T) ↔
      (∀ m ∈ Node.preorderAll nodes, m.Relates S T) ∧ Across T nodes :=
  pairwise_addressedFrom_iff 0 nodes

end

/-- A walk meets casts in the order of their addresses, each of them once. -/
theorem addressed_sorted (nodes : List Node) : (addressed nodes).Pairwise fun x y => x.1 < y.1 := by
  have hall : (addressed nodes).Pairwise (Follows (fun _ _ => True) fun _ _ => True) :=
    pairwise_addressed_iff.mpr
      ⟨fun n _ => ⟨by simp, List.pairwise_of_forall (by simp)⟩, List.pairwise_of_forall (by simp)⟩
  exact hall.imp And.left

/-- Casts one by one are related if at each node they are. -/
theorem pairwise_casts_iff {T : Cast → Cast → Prop} {nodes : List Node} :
    (casts nodes).Pairwise T ↔
      (∀ m ∈ Node.preorderAll nodes, m.Relates T T) ∧ Across T nodes := by
  rw [← map_snd_addressed, List.pairwise_map, ← pairwise_addressed_iff]
  constructor
  · intro h
    exact ((addressed_sorted nodes).and h).imp fun ⟨hlt, hrelated⟩ => ⟨hlt, by simpa using hrelated⟩
  · intro h
    exact h.imp fun hfollows => by simpa using hfollows.2

/-! ### Nested casts -/

def Span.LiesIn (inner outer : Span) : Prop :=
  outer.start ≤ inner.start ∧ inner.stop ≤ outer.stop ∧ inner ≠ outer

def Span.IsApart (a b : Span) : Prop := a.stop ≤ b.start ∨ b.stop ≤ a.start

instance liesInDecidable (inner outer : Span) : Decidable (inner.LiesIn outer) :=
  inferInstanceAs (Decidable (_ ∧ _ ∧ _))

instance isApartDecidable (a b : Span) : Decidable (a.IsApart b) :=
  inferInstanceAs (Decidable (_ ∨ _))

instance acrossDecidable (T : Cast → Cast → Prop) [DecidableRel T] (nodes : List Node) :
    Decidable (Across T nodes) :=
  inferInstanceAs (Decidable (nodes.Pairwise _))

instance relatesDecidable (S T : Cast → Cast → Prop) [DecidableRel S] [DecidableRel T] (n : Node) :
    Decidable (n.Relates S T) :=
  inferInstanceAs (Decidable (_ ∧ _))

/-- Casts that lie in a text as they do in its tree: none is empty, each is longer than those inside
it, and those in different parts of a node are apart. -/
@[mk_iff] structure Nested (nodes : List Node) : Prop where
  full : ∀ c ∈ casts nodes, c.span.start < c.span.stop
  parts : ∀ n ∈ Node.preorderAll nodes,
    n.Relates (fun c d => d.span.LiesIn c.span) fun c d => c.span.IsApart d.span
  trees : Across (fun c d => c.span.IsApart d.span) nodes

instance nestedDecidable (nodes : List Node) : Decidable (Nested nodes) :=
  decidable_of_iff _ (nested_iff nodes).symm

section

variable {nodes : List Node} {a b : List ℕ} {c d : Cast}

theorem mem_casts_iff : c ∈ casts nodes ↔ ∃ address, castAt? nodes address = some c := by
  rw [← map_snd_addressed, List.mem_map]
  simp [mem_addressed_iff]

theorem Nested.follows (h : Nested nodes) (hc : castAt? nodes a = some c)
    (hd : castAt? nodes b = some d) (hlt : a < b) :
    if a <+: b then d.span.LiesIn c.span else c.span.IsApart d.span := by
  have hpairs := pairwise_addressed_iff.mpr ⟨h.parts, h.trees⟩
  let Q : List ℕ × Cast → List ℕ × Cast → Prop := fun x y => x.1 < y.1 →
    if x.1 <+: y.1 then y.2.span.LiesIn x.2.span else x.2.span.IsApart y.2.span
  have hall : ∀ x ∈ addressed nodes, ∀ y ∈ addressed nodes, Q x y := by
    refine List.Pairwise.forall_of_forall_of_flip ?_ ?_ ?_
    · intro x _ hx
      exact absurd hx (List.lt_irrefl x.1)
    · exact hpairs.imp fun hxy _ => hxy.2
    · exact hpairs.imp fun hxy hyx => absurd hxy.1 (List.lt_asymm hyx)
  exact hall (a, c) (mem_addressed_iff.mpr hc) (b, d) (mem_addressed_iff.mpr hd) hlt

theorem Nested.pairwise_casts (h : Nested nodes) :
    (casts nodes).Pairwise fun c d => d.span.LiesIn c.span ∨ c.span.IsApart d.span := by
  rw [← map_snd_addressed, List.pairwise_map]
  refine (pairwise_addressed_iff.mpr ⟨h.parts, h.trees⟩).imp fun {x y} hfollows => ?_
  have hspans := hfollows.2
  split at hspans
  · exact Or.inl hspans
  · exact Or.inr hspans

theorem Nested.liesIn (h : Nested nodes) (hc : castAt? nodes a = some c)
    (hd : castAt? nodes b = some d) (hbelow : a <+: b) (hne : a ≠ b) : d.span.LiesIn c.span := by
  have hlt : a < b := (List.le_iff_lt_or_eq.mp hbelow.le).resolve_right hne
  simpa [hbelow] using h.follows hc hd hlt

theorem Nested.isApart (h : Nested nodes) (hc : castAt? nodes a = some c)
    (hd : castAt? nodes b = some d) (hab : ¬a <+: b) (hba : ¬b <+: a) : c.span.IsApart d.span := by
  obtain hlt | rfl | hlt := Std.lt_trichotomy a b
  · simpa [hab] using h.follows hc hd hlt
  · exact absurd List.prefix_rfl hab
  · have hflip : d.span.IsApart c.span := by simpa [hba] using h.follows hd hc hlt
    exact hflip.symm

end

end Syntax
end CastLint

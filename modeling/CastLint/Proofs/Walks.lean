import CastLint.Syntax.Cast
import Mathlib.Data.Nat.Notation

/-! What a walk visits. Going through trees node by node is going through the list of their casts,
and the visit that stops a walk is the last one: no cast behind it is visited, and none in front of
it is left out. -/

namespace CastLint
namespace Syntax

@[simp] theorem casts_nil : casts [] = [] := rfl

theorem preorderAll_append (ns ms : List Node) :
    Node.preorderAll (ns ++ ms) = Node.preorderAll ns ++ Node.preorderAll ms := by
  induction ns with
  | nil => rfl
  | cons n ns ih => simp [Node.preorderAll, ih]

theorem casts_append (ns ms : List Node) : casts (ns ++ ms) = casts ns ++ casts ms := by
  rw [casts, preorderAll_append, List.filterMap_append]
  rfl

theorem casts_cons (n : Node) (ns : List Node) : casts (n :: ns) = casts [n] ++ casts ns :=
  casts_append [n] ns

theorem casts_mk (kind : Kind) (span : Span) (parts : List Node) :
    casts [.mk kind span parts] = (Node.mk kind span parts).cast?.toList ++ casts parts := by
  simp only [casts, Node.preorderAll, Node.preorder, List.append_nil, List.filterMap_cons]
  cases (Node.mk kind span parts).cast? <;> rfl

theorem casts_node {kind : Kind} {span : Span} {parts : List Node}
    (h : (Node.mk kind span parts).cast? = none) : casts [.mk kind span parts] = casts parts := by
  rw [casts_mk, h]
  rfl

theorem casts_cast (span : Span) (operand type : Node) :
    casts [.mk .asCast span [operand, type]] =
      ⟨operand, type, span⟩ :: (casts [operand] ++ casts [type]) := by
  rw [← casts_cons, casts_mk]
  rfl

section

variable {σ : Type} (visit : σ → Cast → σ × Flow)

theorem foldl_visitNext_stop (s : σ) (all : List Cast) :
    all.foldl (visitNext visit) (s, .stop) = (s, .stop) := by
  induction all with
  | nil => rfl
  | cons cast all ih => exact ih

mutual

theorem Node.walk_eq_foldl (state : σ × Flow) (n : Node) :
    Node.walk visit state n = (casts [n]).foldl (visitNext visit) state := by
  obtain ⟨kind, span, parts⟩ := n
  rw [casts_mk, List.foldl_append, Node.walk]
  cases (Node.mk kind span parts).cast? with
  | none => exact Node.walkAll_eq_foldl state parts
  | some cast =>
    dsimp only [Option.toList_some, List.foldl_cons, List.foldl_nil]
    -- behind a visit that stops the walk, nothing inside the cast is visited
    rcases visitNext visit state cast with ⟨s, _ | _⟩
    · exact Node.walkAll_eq_foldl (s, .goOn) parts
    · exact (foldl_visitNext_stop visit s (casts parts)).symm

theorem Node.walkAll_eq_foldl (state : σ × Flow) (nodes : List Node) :
    Node.walkAll visit state nodes = (casts nodes).foldl (visitNext visit) state := by
  cases nodes with
  | nil => rfl
  | cons n nodes =>
    rw [Node.walkAll, Node.walkAll_eq_foldl, Node.walk_eq_foldl, casts_cons n nodes,
      List.foldl_append]

end

theorem walk_eq_foldl (items : List Node) (start : σ) :
    walk visit items start = ((casts items).foldl (visitNext visit) (start, .goOn)).1 := by
  rw [walk, Node.walkAll_eq_foldl]

theorem walk_of_goOn (next : σ → Cast → σ) (items : List Node) (start : σ) :
    walk (fun s cast => (next s cast, .goOn)) items start = (casts items).foldl next start := by
  rw [walk_eq_foldl]
  generalize casts items = all
  induction all generalizing start with
  | nil => rfl
  | cons cast all ih => exact ih (next start cast)

theorem walk_gathers {α : Type} (found? : Cast → Option α) (items : List Node) :
    walk (fun found cast => (found ++ (found? cast).toList, .goOn)) items [] =
      (casts items).filterMap found? := by
  rw [walk_of_goOn]
  suffices h : ∀ (all : List Cast) (found : List α),
      all.foldl (fun found cast => found ++ (found? cast).toList) found =
        found ++ all.filterMap found? by
    exact h (casts items) []
  intro all
  induction all with
  | nil => simp
  | cons cast all ih =>
    intro found
    rw [List.foldl_cons, ih, List.filterMap_cons]
    cases found? cast <;> simp

/-! ### The visits of a walk -/

/-- Visits that note down which casts they are of. -/
def noting : σ × List Cast → Cast → (σ × List Cast) × Flow
  | (s, seen), cast => (((visit s cast).1, seen ++ [cast]), (visit s cast).2)

def visited (items : List Node) (start : σ) : List Cast :=
  (walk (noting visit) items (start, [])).2

def stateAfter (start : σ) (seen : List Cast) : σ :=
  seen.foldl (fun s cast => (visit s cast).1) start

/-- The visit of a cast stops the walk if those in front of it have been visited. -/
def StopsAt (start : σ) (front : List Cast) (cast : Cast) : Prop :=
  (visit (stateAfter visit start front) cast).2 = .stop

/-- The first casts of all, up to the first one whose visit stops the walk. -/
structure UpToStop (start : σ) (all seen : List Cast) : Prop where
  first : seen <+: all
  goesOn : ∀ front cast back, seen = front ++ cast :: back → back ≠ [] →
    ¬StopsAt visit start front cast
  stops : seen ≠ all → ∃ front cast, seen = front ++ [cast] ∧ StopsAt visit start front cast

variable {visit} {start : σ} {cast : Cast} {all seen : List Cast}

theorem upToStop_nil : UpToStop visit start [] seen ↔ seen = [] := by
  constructor
  · intro h
    exact List.prefix_nil.mp h.first
  · rintro rfl
    exact ⟨List.prefix_rfl, by simp, fun h => absurd rfl h⟩

theorem upToStop_cons_stop (hstop : (visit start cast).2 = .stop) :
    UpToStop visit start (cast :: all) seen ↔ seen = [cast] := by
  constructor
  · intro h
    obtain ⟨rest, hrest⟩ := h.first
    cases seen with
    | nil => simpa using h.stops (List.cons_ne_nil _ _).symm
    | cons c seen =>
      obtain ⟨rfl, -⟩ := List.cons_eq_cons.mp hrest
      cases seen with
      | nil => rfl
      | cons d seen => exact absurd hstop (h.goesOn [] c (d :: seen) rfl (List.cons_ne_nil _ _))
  · rintro rfl
    refine ⟨⟨all, rfl⟩, ?_, fun _ => ⟨[], cast, rfl, hstop⟩⟩
    intro front c back h hback
    cases front with
    | nil => exact absurd (List.cons_eq_cons.mp h).2.symm hback
    | cons => simp at h

theorem upToStop_cons_goOn (hgo : (visit start cast).2 = .goOn) :
    UpToStop visit start (cast :: all) seen ↔
      ∃ rest, seen = cast :: rest ∧ UpToStop visit (visit start cast).1 all rest := by
  have hnot : ¬StopsAt visit start [] cast := by simp [StopsAt, stateAfter, hgo]
  constructor
  · intro h
    cases seen with
    | nil => simpa using h.stops (List.cons_ne_nil _ _).symm
    | cons c rest =>
      obtain ⟨rfl, hrest⟩ := List.cons_prefix_cons.mp h.first
      refine ⟨rest, rfl, hrest, ?_, ?_⟩
      · intro front d back hsplit hback
        exact h.goesOn (c :: front) d back (by rw [hsplit]; rfl) hback
      · intro hne
        obtain ⟨front, d, hsplit, hstops⟩ := h.stops fun heq => hne (List.cons_eq_cons.mp heq).2
        cases front with
        | nil =>
          obtain ⟨rfl, -⟩ := List.cons_eq_cons.mp hsplit
          exact absurd hstops hnot
        | cons e front =>
          obtain ⟨rfl, htail⟩ := List.cons_eq_cons.mp hsplit
          exact ⟨front, d, htail, hstops⟩
  · rintro ⟨rest, rfl, h⟩
    refine ⟨List.cons_prefix_cons.mpr ⟨rfl, h.first⟩, ?_, ?_⟩
    · intro front d back hsplit hback
      cases front with
      | nil =>
        obtain ⟨rfl, -⟩ := List.cons_eq_cons.mp hsplit
        exact hnot
      | cons e front =>
        obtain ⟨rfl, htail⟩ := List.cons_eq_cons.mp hsplit
        exact h.goesOn front d back htail hback
    · intro hne
      obtain ⟨front, d, rfl, hstops⟩ := h.stops fun heq => hne (congrArg _ heq)
      exact ⟨cast :: front, d, rfl, hstops⟩

theorem UpToStop.unique {others : List Cast} (h : UpToStop visit start all seen)
    (hothers : UpToStop visit start all others) : others = seen := by
  induction all generalizing start seen others with
  | nil => rw [upToStop_nil.mp h, upToStop_nil.mp hothers]
  | cons cast all ih =>
    cases hflow : (visit start cast).2 with
    | stop =>
      rw [(upToStop_cons_stop hflow).mp h, (upToStop_cons_stop hflow).mp hothers]
    | goOn =>
      obtain ⟨rest, rfl, hrest⟩ := (upToStop_cons_goOn hflow).mp h
      obtain ⟨rest', rfl, hrest'⟩ := (upToStop_cons_goOn hflow).mp hothers
      rw [ih hrest hrest']

/-- The visits of a list of casts, with those noted down that were visited before. -/
theorem foldl_noting (visit : σ → Cast → σ × Flow) (start : σ) (before all : List Cast) :
    ∃ seen, UpToStop visit start all seen ∧
      (all.foldl (visitNext visit) (start, .goOn)).1 = stateAfter visit start seen ∧
      (all.foldl (visitNext (noting visit)) ((start, before), .goOn)).1 =
        (stateAfter visit start seen, before ++ seen) := by
  induction all generalizing start before with
  | nil => exact ⟨[], upToStop_nil.mpr rfl, rfl, by simp [stateAfter]⟩
  | cons cast all ih =>
    rcases hvisit : visit start cast with ⟨s, flow⟩
    have hnoting : noting visit (start, before) cast = ((s, before ++ [cast]), flow) := by
      simp [noting, hvisit]
    simp only [List.foldl_cons, visitNext, hnoting, hvisit]
    cases flow with
    | stop =>
      refine ⟨[cast], (upToStop_cons_stop (by rw [hvisit])).mpr rfl, ?_, ?_⟩ <;>
        simp [foldl_visitNext_stop, stateAfter, hvisit]
    | goOn =>
      obtain ⟨seen, hseen, hstate, hnoted⟩ := ih s (before ++ [cast])
      refine ⟨cast :: seen, (upToStop_cons_goOn (by rw [hvisit])).mpr ⟨seen, rfl, ?_⟩, ?_, ?_⟩
      · rwa [hvisit]
      · simp [hstate, stateAfter, hvisit]
      · simp [hnoted, stateAfter, hvisit]

/-- The casts that a walk visits are the first ones of the trees, up to the first visit that stops
the walk, and its result is the state behind them. -/
theorem visited_upToStop (visit : σ → Cast → σ × Flow) (items : List Node) (start : σ) :
    UpToStop visit start (casts items) (visited visit items start) ∧
      walk visit items start = stateAfter visit start (visited visit items start) := by
  obtain ⟨seen, hseen, hstate, hnoted⟩ := foldl_noting visit start [] (casts items)
  have hvisited : visited visit items start = seen := by
    rw [visited, walk_eq_foldl, hnoted, List.nil_append]
  rw [hvisited, walk_eq_foldl]
  exact ⟨hseen, hstate⟩

theorem upToStop_all
    (h : ∀ front cast back, all = front ++ cast :: back → ¬StopsAt visit start front cast) :
    UpToStop visit start all all :=
  ⟨List.prefix_rfl, fun front cast back hsplit _ => h front cast back hsplit,
    fun hne => absurd rfl hne⟩

theorem upToStop_take {n : ℕ} (hn : 1 ≤ n)
    (h : ∀ front cast back, all = front ++ cast :: back →
      (front.length + 1 < n → ¬StopsAt visit start front cast) ∧
        (front.length + 1 = n → StopsAt visit start front cast)) :
    UpToStop visit start all (all.take n) := by
  refine ⟨List.take_prefix n all, ?_, ?_⟩
  · intro front cast back hsplit hback
    have hall : all = front ++ cast :: (back ++ all.drop n) := by
      rw [← List.cons_append, ← List.append_assoc, ← hsplit, List.take_append_drop]
    have hlength := congrArg List.length hsplit
    have hpos := List.length_pos_iff.mpr hback
    simp only [List.length_take, List.length_append, List.length_cons] at hlength
    exact (h front cast _ hall).1 (by omega)
  · intro hne
    have hlt : n < all.length :=
      Nat.lt_of_not_le fun hle => hne (List.take_of_length_le hle)
    obtain ⟨k, rfl⟩ := Nat.exists_eq_add_of_le' hn
    have hk : k < all.length := by omega
    refine ⟨all.take k, all[k], List.take_succ_eq_append_getElem hk, ?_⟩
    refine (h (all.take k) all[k] (all.drop (k + 1)) ?_).2 ?_
    · rw [List.getElem_cons_drop, List.take_append_drop]
    · rw [List.length_take, Nat.min_eq_left (Nat.le_of_lt hk)]

end

/-- The casts that a walk visits are those from the first one on, in pre-order, up to the first whose
visit stops the walk, and no others; they are all casts if no visit stops it, and `n` if the visit
number `n` is the first to do so. What is visited decides the result. -/
theorem walk_visits_upToStop {σ : Type} (visit : σ → Cast → σ × Flow) (items : List Node)
    (start : σ) :
    (∀ seen, visited visit items start = seen ↔ UpToStop visit start (casts items) seen) ∧
    walk visit items start = stateAfter visit start (visited visit items start) ∧
    visited (fun s cast => ((visit s cast).1, .goOn)) items start = casts items ∧
    ∀ n, 1 ≤ n →
      (∀ front cast back, casts items = front ++ cast :: back →
        (front.length + 1 < n → ¬StopsAt visit start front cast) ∧
          (front.length + 1 = n → StopsAt visit start front cast)) →
      visited visit items start = (casts items).take n := by
  obtain ⟨hvisited, hwalk⟩ := visited_upToStop visit items start
  refine ⟨?_, hwalk, ?_, ?_⟩
  · intro seen
    constructor
    · rintro rfl
      exact hvisited
    · intro hseen
      exact hseen.unique hvisited
  · have hfree := (visited_upToStop (fun s cast => ((visit s cast).1, .goOn)) items start).1
    exact (upToStop_all fun front cast back _ => by simp [StopsAt]).unique hfree
  · intro n hn hstops
    exact (upToStop_take hn hstops).unique hvisited

end Syntax
end CastLint

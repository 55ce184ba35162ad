import Mathlib.Order.Basic
import Mathlib.Data.List.Infix

/-!
Lists of entries of which some have a key, the keys being in order. A test that
compares keys with a bound cuts a list: what passes it is a piece of the list,
less the entries without a key. Tests that cut also cut one after the other.
-/

namespace OrderedKeys

/-- Of every piece of the list the entries that pass are those of a smaller piece that are `present`. -/
def Cuts {α : Type} (test present : α → Bool) (list : List α) : Prop :=
  ∀ piece, piece <:+: list → ∃ part, part <:+: piece ∧ piece.filter test = part.filter present

section Cuts

variable {α : Type} {test present : α → Bool} {list : List α}

theorem Cuts.whole (cuts : Cuts test present list) :
    ∃ part, part <:+: list ∧ list.filter test = part.filter present := cuts list List.infix_rfl

theorem cuts_all (list : List α) : Cuts (fun _ => true) (fun _ => true) list :=
  fun piece _ => ⟨piece, List.infix_rfl, rfl⟩

theorem Cuts.and {other also : α → Bool} (first : Cuts test present list) (second : Cuts other also list) :
    Cuts (fun entry => test entry && other entry) (fun entry => present entry && also entry) list := by
  intro piece inside
  obtain ⟨part, within, same⟩ := first piece inside
  obtain ⟨smaller, deeper, equal⟩ := second part (within.trans inside)
  refine ⟨smaller, deeper.trans within, ?_⟩
  calc piece.filter (fun entry => test entry && other entry)
      = (piece.filter test).filter other := by rw [List.filter_filter]; simp only [Bool.and_comm]
    _ = (part.filter present).filter other := by rw [same]
    _ = (part.filter other).filter present := by rw [List.filter_filter, List.filter_filter]; simp only [Bool.and_comm]
    _ = (smaller.filter also).filter present := by rw [equal]
    _ = smaller.filter (fun entry => present entry && also entry) := List.filter_filter ..

theorem Cuts.congr {other also : α → Bool} (cuts : Cuts test present list)
    (same : ∀ entry ∈ list, other entry = test entry) (here : ∀ entry ∈ list, also entry = present entry) :
    Cuts other also list := by
  intro piece inside
  obtain ⟨part, within, equal⟩ := cuts piece inside
  refine ⟨part, within, ?_⟩
  rw [List.filter_congr fun entry member => same entry (inside.subset member), equal]
  exact (List.filter_congr fun entry member => here entry (inside.subset (within.subset member))).symm

end Cuts

variable {α κ : Type} [LE κ] {key : α → Option κ} {list : List α}

def Ordered (key : α → Option κ) (list : List α) : Prop := (list.filterMap key).Pairwise (· ≤ ·)

theorem ordered_cons {first : α} {rest : List α} :
    Ordered key (first :: rest) ↔
      (∀ least ∈ key first, ∀ entry ∈ rest, ∀ later ∈ key entry, least ≤ later) ∧ Ordered key rest := by
  cases there : key first with
  | none => simp [Ordered, there]
  | some least =>
      rw [Ordered, List.filterMap_cons_some there, List.pairwise_cons]
      refine and_congr_left fun _ => ⟨fun all k same entry member later found => ?_, fun all later inside => ?_⟩
      · obtain rfl := Option.some.inj same
        exact all later (List.mem_filterMap.mpr ⟨entry, member, found⟩)
      · obtain ⟨entry, member, found⟩ := List.mem_filterMap.mp inside
        exact all least rfl entry member later found

theorem Ordered.piece (ordered : Ordered key list) {piece : List α} (inside : piece <:+: list) : Ordered key piece :=
  List.Pairwise.sublist (inside.sublist.filterMap key) ordered

theorem Ordered.split (ordered : Ordered key list) (above : κ → Bool)
    (upward : ∀ lower upper, lower ≤ upper → above lower → above upper) :
    ∃ front back, list = front ++ back ∧ (∀ entry ∈ front, ∀ k ∈ key entry, ¬ above k) ∧
      ∀ entry ∈ back, ∀ k ∈ key entry, above k := by
  induction list with
  | nil => exact ⟨[], [], rfl, List.forall_mem_nil _, List.forall_mem_nil _⟩
  | cons first rest ih =>
      obtain ⟨least, tail⟩ := ordered_cons.mp ordered
      by_cases reached : ∃ k ∈ key first, above k
      · obtain ⟨k, there, high⟩ := reached
        refine ⟨[], first :: rest, rfl, List.forall_mem_nil _, List.forall_mem_cons.mpr ⟨?_, ?_⟩⟩
        · intro other same
          obtain rfl := Option.mem_unique same there
          exact high
        · exact fun entry member later found => upward k later (least k there entry member later found) high
      · obtain ⟨front, back, rfl, before, behind⟩ := ih tail
        refine ⟨first :: front, back, rfl, List.forall_mem_cons.mpr ⟨?_, before⟩, behind⟩
        exact fun k there high => reached ⟨k, there, high⟩

section Chosen

omit [LE κ]

variable {chosen : κ → Bool}

theorem filter_keyed (all : ∀ entry ∈ list, ∀ k ∈ key entry, chosen k) :
    list.filter (fun entry => (key entry).any chosen) = list.filter fun entry => (key entry).isSome := by
  refine List.filter_congr fun entry member => ?_
  cases there : key entry with
  | none => rfl
  | some k => exact all entry member k there

theorem filter_none (none : ∀ entry ∈ list, ∀ k ∈ key entry, ¬ chosen k) :
    list.filter (fun entry => (key entry).any chosen) = [] := by
  refine List.filter_eq_nil_iff.mpr fun entry member some => ?_
  obtain ⟨k, there, high⟩ := (Option.any_eq_true chosen (key entry)).mp some
  exact none entry member k there high

end Chosen

theorem Ordered.cuts_above (ordered : Ordered key list) (above : κ → Bool)
    (upward : ∀ lower upper, lower ≤ upper → above lower → above upper) :
    Cuts (fun entry => (key entry).any above) (fun entry => (key entry).isSome) list := by
  intro piece inside
  obtain ⟨front, back, rfl, before, behind⟩ := (ordered.piece inside).split above upward
  refine ⟨back, (List.suffix_append front back).isInfix, ?_⟩
  rw [List.filter_append, filter_none before, filter_keyed behind, List.nil_append]

theorem Ordered.cuts_below (ordered : Ordered key list) (below : κ → Bool)
    (downward : ∀ lower upper, lower ≤ upper → below upper → below lower) :
    Cuts (fun entry => (key entry).any below) (fun entry => (key entry).isSome) list := by
  intro piece inside
  have flipped (lower upper : κ) (less : lower ≤ upper) (high : (!below lower) = true) : (!below upper) = true := by
    cases low : below upper with
    | false => rfl
    | true => simp [downward lower upper less low] at high
  obtain ⟨front, back, rfl, before, behind⟩ := (ordered.piece inside).split _ flipped
  refine ⟨front, (List.prefix_append front back).isInfix, ?_⟩
  rw [List.filter_append, filter_keyed fun entry member k there => by simpa using before entry member k there,
    filter_none fun entry member k there => by simpa using behind entry member k there, List.append_nil]

end OrderedKeys

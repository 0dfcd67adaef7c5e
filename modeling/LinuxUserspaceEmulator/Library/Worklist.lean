import Mathlib.Data.Finset.Card
import Mathlib.Data.Finset.SDiff
import Mathlib.Logic.Relation

/-!
# Worklist search

A search of a graph from some roots, with a set of the nodes seen and a stack of the nodes
whose successors have not been looked at.  Looking at a node may fail.

Main results:

- Theorem `Invariant.considerAll`: considering the successors of a node that was pending
  keeps what has been seen closed.
- Theorem `mem_of_search_eq_ok`: a search that ends has seen exactly the nodes that some root
  leads to.
- Theorem `search_returns_iff`: a search with more rounds than there are nodes ends exactly when
  no node fails that it comes to.
-/

namespace Worklist

variable {α ε : Type*} [DecidableEq α]

/-- The nodes seen, and the stack of those to look at. -/
structure Search (α : Type*) where
  seen : Finset α
  pending : List α

namespace Search

/-- A node that is seen for the first time becomes pending. -/
def consider (search : Search α) (node : α) : Search α :=
  if node ∈ search.seen then search
  else ⟨insert node search.seen, node :: search.pending⟩

/-- Consider some nodes in order. -/
def considerAll (search : Search α) (nodes : List α) : Search α :=
  nodes.foldl consider search

end Search

/-- Look at the pending nodes one by one, for a number of rounds. -/
def run (outOfRounds : ε) (successors : α → Except ε (List α)) :
    Nat → Search α → Except ε (Finset α)
  | 0, _ => .error outOfRounds
  | rounds + 1, search =>
      match search.pending with
      | [] => .ok search.seen
      | node :: rest => do
          let nodes ← successors node
          run outOfRounds successors rounds (Search.considerAll ⟨search.seen, rest⟩ nodes)

/-! ## Considering nodes -/

namespace Search

variable {search : Search α} {nodes : List α} {node other : α}

@[simp]
theorem mem_seen_consider : other ∈ (search.consider node).seen ↔
    other ∈ search.seen ∨ other = node := by
  unfold consider
  split
  · rename_i hseen
    constructor
    · exact Or.inl
    · rintro (h | rfl)
      · exact h
      · exact hseen
  · rw [Finset.mem_insert]
    exact Or.comm

@[simp]
theorem mem_seen_considerAll : other ∈ (search.considerAll nodes).seen ↔
    other ∈ search.seen ∨ other ∈ nodes := by
  induction nodes generalizing search with
  | nil => simp [considerAll]
  | cons first rest ih =>
      rw [considerAll, List.foldl_cons, ← considerAll, ih, mem_seen_consider, List.mem_cons,
        or_assoc]

/-- A pending node stays pending, and every new node is pending. -/
theorem mem_pending_considerAll (h : other ∈ (search.considerAll nodes).seen)
    (hpending : other ∉ (search.considerAll nodes).pending) :
    other ∈ search.seen ∧ other ∉ search.pending := by
  induction nodes generalizing search with
  | nil => exact ⟨h, hpending⟩
  | cons first rest ih =>
      rcases ih h hpending with ⟨hseen, hnot⟩
      unfold consider at hseen hnot
      split at hseen <;> rename_i hfirst
      · rw [if_pos hfirst] at hnot
        exact ⟨hseen, hnot⟩
      · rw [if_neg hfirst] at hnot
        simp only [List.mem_cons, not_or] at hnot
        exact ⟨(Finset.mem_insert.mp hseen).resolve_left hnot.1, hnot.2⟩

/-- Only nodes that have been seen are pending. -/
theorem pending_subset_considerAll (h : ∀ node ∈ search.pending, node ∈ search.seen) :
    ∀ node ∈ (search.considerAll nodes).pending, node ∈ (search.considerAll nodes).seen := by
  induction nodes generalizing search with
  | nil => exact h
  | cons first rest ih =>
      apply ih
      intro node hnode
      rw [mem_seen_consider]
      unfold consider at hnode
      split at hnode
      · exact Or.inl (h node hnode)
      · rcases List.mem_cons.mp hnode with rfl | hnode
        · exact Or.inr rfl
        · exact Or.inl (h node hnode)

/-- How many rounds a search may still take in a set of nodes. -/
def roundsLeft (allNodes : Finset α) (search : Search α) : Nat :=
  search.pending.length + (allNodes \ search.seen).card

/-- Considering nodes does not change how many rounds are left. -/
theorem roundsLeft_considerAll {allNodes : Finset α} (h : ∀ node ∈ nodes, node ∈ allNodes) :
    (search.considerAll nodes).roundsLeft allNodes = search.roundsLeft allNodes := by
  induction nodes generalizing search with
  | nil => rfl
  | cons first rest ih =>
      rw [considerAll, List.foldl_cons, ← considerAll,
        ih fun node hnode => h node (List.mem_cons_of_mem _ hnode)]
      unfold consider
      split
      · rfl
      · rename_i hfirst
        have hmem : first ∈ allNodes \ search.seen :=
          Finset.mem_sdiff.mpr ⟨h first List.mem_cons_self, hfirst⟩
        have hcard := Finset.card_erase_add_one hmem
        rw [roundsLeft, roundsLeft, Finset.sdiff_insert, List.length_cons]
        omega

end Search

/-! ## The search -/

/-- A successor, where looking at a node does not fail. -/
def Leads (successors : α → Except ε (List α)) (node next : α) : Prop :=
  ∃ nodes, successors node = .ok nodes ∧ next ∈ nodes

/-- The nodes that some root leads to. -/
def Reaches (successors : α → Except ε (List α)) (roots : List α) (node : α) : Prop :=
  ∃ root ∈ roots, Relation.ReflTransGen (Leads successors) root node

section Run

variable {successors : α → Except ε (List α)} {roots : List α} {search : Search α}
  {allNodes : Finset α} {outOfRounds : ε}

/-- What holds of a search between two rounds. -/
structure Invariant (successors : α → Except ε (List α)) (roots : List α)
    (allNodes : Finset α) (search : Search α) : Prop where
  sound : ∀ node ∈ search.seen, Reaches successors roots node
  within : ∀ node ∈ search.seen, node ∈ allNodes
  roots_seen : ∀ root ∈ roots, root ∈ search.seen
  pending_seen : ∀ node ∈ search.pending, node ∈ search.seen
  closed : ∀ node ∈ search.seen, node ∉ search.pending →
    ∀ next, Leads successors node next → next ∈ search.seen
  /-- A node that is no longer pending has not failed. -/
  looked : ∀ node ∈ search.seen, node ∉ search.pending → ∃ nodes, successors node = .ok nodes

theorem invariant_start (hroots : ∀ root ∈ roots, root ∈ allNodes) :
    Invariant successors roots allNodes (Search.considerAll ⟨∅, []⟩ roots) where
  sound := by
    intro node hnode
    have hroot : node ∈ roots := by simpa using hnode
    exact ⟨node, hroot, .refl⟩
  within := by
    intro node hnode
    exact hroots node (by simpa using hnode)
  roots_seen := by simp
  pending_seen := Search.pending_subset_considerAll (by simp)
  closed := by
    intro node hseen hpending
    exact absurd (Search.mem_pending_considerAll hseen hpending).1 (by simp)
  looked := by
    intro node hseen hpending
    exact absurd (Search.mem_pending_considerAll hseen hpending).1 (by simp)

/-- A round looks at one pending node, and its successors have been seen after it. -/
theorem Invariant.considerAll {node : α} {rest nodes : List α}
    (h : Invariant successors roots allNodes ⟨search.seen, node :: rest⟩)
    (hnodes : successors node = .ok nodes) (hwithin : ∀ next ∈ nodes, next ∈ allNodes) :
    Invariant successors roots allNodes (Search.considerAll ⟨search.seen, rest⟩ nodes) where
  sound := by
    intro next hnext
    rcases Search.mem_seen_considerAll.mp hnext with hold | hnew
    · exact h.sound next hold
    · rcases h.sound node (h.pending_seen node List.mem_cons_self) with ⟨root, hroot, hpath⟩
      exact ⟨root, hroot, hpath.tail ⟨nodes, hnodes, hnew⟩⟩
  within := by
    intro next hnext
    rcases Search.mem_seen_considerAll.mp hnext with hold | hnew
    · exact h.within next hold
    · exact hwithin next hnew
  roots_seen := fun root hroot =>
    Search.mem_seen_considerAll.mpr (Or.inl (h.roots_seen root hroot))
  pending_seen := Search.pending_subset_considerAll fun other hother =>
    h.pending_seen other (List.mem_cons_of_mem _ hother)
  closed := by
    intro other hseen hpending next hleads
    rcases Search.mem_pending_considerAll hseen hpending with ⟨hold, hnot⟩
    rw [Search.mem_seen_considerAll]
    by_cases hsame : other = node
    · subst hsame
      rcases hleads with ⟨nodes', hnodes', hnext⟩
      rw [hnodes] at hnodes'
      cases hnodes'
      exact Or.inr hnext
    · have hnotpending : other ∉ node :: rest := by
        simp only [List.mem_cons, not_or]
        exact ⟨hsame, hnot⟩
      exact Or.inl (h.closed other hold hnotpending next hleads)
  looked := by
    intro other hseen hpending
    rcases Search.mem_pending_considerAll hseen hpending with ⟨hold, hnot⟩
    by_cases hsame : other = node
    · exact ⟨nodes, hsame ▸ hnodes⟩
    · apply h.looked other hold
      simp only [List.mem_cons, not_or]
      exact ⟨hsame, hnot⟩

omit [DecidableEq α] in
/-- A search in which nothing is pending has seen everything the roots lead to. -/
theorem Invariant.complete (h : Invariant successors roots allNodes search)
    (hdone : search.pending = []) {node : α} (hreaches : Reaches successors roots node) :
    node ∈ search.seen := by
  rcases hreaches with ⟨root, hroot, hpath⟩
  induction hpath with
  | refl => exact h.roots_seen root hroot
  | tail _ hleads ih => exact h.closed _ ih (by simp [hdone]) _ hleads

/-- A search that ends has seen exactly the nodes that the roots lead to, and none of them
failed. -/
theorem run_sound (rounds : Nat)
    (hwithin : ∀ node ∈ allNodes, ∀ nodes, successors node = .ok nodes →
      ∀ next ∈ nodes, next ∈ allNodes)
    (hinv : Invariant successors roots allNodes search) {seen : Finset α}
    (h : run outOfRounds successors rounds search = .ok seen) :
    (∀ node, node ∈ seen ↔ Reaches successors roots node) ∧
      ∀ node ∈ seen, ∃ nodes, successors node = .ok nodes := by
  induction rounds generalizing search with
  | zero => cases h
  | succ rounds ih =>
      rw [run] at h
      cases hpending : search.pending with
      | nil =>
          rw [hpending] at h
          cases h
          exact ⟨fun node => ⟨hinv.sound node, hinv.complete hpending⟩,
            fun node hnode => hinv.looked node hnode (by simp [hpending])⟩
      | cons node rest =>
          have hcurrent : Invariant successors roots allNodes ⟨search.seen, node :: rest⟩ := by
            rw [← hpending]
            exact hinv
          rw [hpending] at h
          cases hnodes : successors node with
          | error e =>
              simp only [hnodes] at h
              cases h
          | ok nodes =>
              simp only [hnodes] at h
              have hnode := hinv.within node (hcurrent.pending_seen node List.mem_cons_self)
              exact ih (hcurrent.considerAll hnodes (hwithin node hnode nodes hnodes)) h

/-- A search in which no node fails that the roots lead to ends. -/
theorem run_returns (rounds : Nat)
    (hwithin : ∀ node ∈ allNodes, ∀ nodes, successors node = .ok nodes →
      ∀ next ∈ nodes, next ∈ allNodes)
    (hsuccessors : ∀ node, Reaches successors roots node → ∃ nodes, successors node = .ok nodes)
    (hinv : Invariant successors roots allNodes search)
    (hrounds : search.roundsLeft allNodes < rounds) :
    ∃ seen, run outOfRounds successors rounds search = .ok seen := by
  induction rounds generalizing search with
  | zero => omega
  | succ rounds ih =>
      cases hpending : search.pending with
      | nil => exact ⟨search.seen, by simp [run, hpending]⟩
      | cons node rest =>
          have hcurrent : Invariant successors roots allNodes ⟨search.seen, node :: rest⟩ := by
            rw [← hpending]
            exact hinv
          have hseen := hcurrent.pending_seen node List.mem_cons_self
          rcases hsuccessors node (hinv.sound node hseen) with ⟨nodes, hnodes⟩
          have hnext := hwithin node (hinv.within node hseen) nodes hnodes
          have hless : (Search.considerAll ⟨search.seen, rest⟩ nodes).roundsLeft allNodes <
              rounds := by
            rw [Search.roundsLeft_considerAll hnext]
            simp only [Search.roundsLeft, hpending, List.length_cons] at hrounds ⊢
            omega
          rcases ih (hcurrent.considerAll hnodes hnext) hless with ⟨seen, hrun⟩
          refine ⟨seen, ?_⟩
          rw [run, hpending]
          simp only [hnodes]
          exact hrun

section Search

variable {rounds : Nat} (hroots : ∀ root ∈ roots, root ∈ allNodes)
  (hwithin : ∀ node ∈ allNodes, ∀ nodes, successors node = .ok nodes →
    ∀ next ∈ nodes, next ∈ allNodes)

include hroots hwithin

/-- What a search that ends has seen. -/
theorem mem_of_search_eq_ok {seen : Finset α}
    (h : run outOfRounds successors rounds (Search.considerAll ⟨∅, []⟩ roots) = .ok seen)
    (node : α) : node ∈ seen ↔ Reaches successors roots node :=
  (run_sound rounds hwithin (invariant_start hroots) h).1 node

/-- A search with more rounds than there are nodes ends exactly when no node fails that the
roots lead to. -/
theorem search_returns_iff (hrounds : allNodes.card < rounds) :
    (∃ seen, run outOfRounds successors rounds (Search.considerAll ⟨∅, []⟩ roots) = .ok seen) ↔
      ∀ node, Reaches successors roots node → ∃ nodes, successors node = .ok nodes := by
  constructor
  · rintro ⟨seen, h⟩ node hnode
    rcases run_sound rounds hwithin (invariant_start hroots) h with ⟨hmem, hlooked⟩
    exact hlooked node ((hmem node).mpr hnode)
  · intro hsuccessors
    apply run_returns rounds hwithin hsuccessors (invariant_start hroots)
    rw [Search.roundsLeft_considerAll hroots]
    simpa [Search.roundsLeft] using hrounds

end Search

end Run

end Worklist

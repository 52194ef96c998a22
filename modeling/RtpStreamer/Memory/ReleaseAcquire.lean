import Mathlib.Data.Fintype.Basic
import Mathlib.Order.Lattice
import Mathlib.Tactic.Common

/-!
# Memory with release and acquire

Threads that share atomic variables, ordinary variables and locks, in the release/acquire fragment of the
memory model of C++. The stores of an atomic variable stay in its history, and a load may return any of them
that is not older than one the thread knows of. What a thread knows is its view. A release store, an unlock
and the end of a thread hand a view on; an acquire load, a lock and a join take it over. An access to an
ordinary variable races with an earlier one, not both of them reads, that its thread does not know of.

A store is the newest of its history, which is the modification order of a variable that one thread stores.

`EveryView` is the rule for an invariant of all the views, `Touches` says what an access leaves alone, and
`Guarded` is the rule for a variable that is accessed under a lock.
-/

universe u

set_option linter.unusedSectionVars false

namespace ReleaseAcquire

/-- What can happen a number of times: a store to an atomic variable, a write of an ordinary one, and a read
of it by a thread. -/
inductive Place (θ A N : Type) where
  | stored (a : A)
  | written (n : N)
  | read (n : N) (t : θ)
  deriving DecidableEq

/-- Of how many accesses of each kind there is knowledge. -/
abbrev View (θ A N : Type) := Place θ A N → ℕ

/-- A store, with the view that it hands on. -/
structure Message (θ A N V : Type) where
  value : V
  view : View θ A N

structure Memory (θ A N L : Type) (V : A → Type) (C : N → Type u) where
  /-- The stores of an atomic variable, the initial value first. -/
  history : (a : A) → ℕ → Message θ A N (V a)
  cells : (n : N) → C n
  /-- The number of accesses there have been. -/
  latest : View θ A N
  views : θ → View θ A N
  holder : L → Option θ
  /-- The view that the last unlock has handed on. -/
  released : L → View θ A N
  racy : Bool := false

namespace Memory

variable {θ A N L : Type} {V : A → Type} {C : N → Type u}

/-- The memory before any access. -/
def initial (values : (a : A) → V a) (cells : (n : N) → C n) : Memory θ A N L V C where
  history := fun a _ => { value := values a, view := fun _ => 0 }
  cells := cells
  latest := fun _ => 0
  views := fun _ _ => 0
  holder := fun _ => none
  released := fun _ _ => 0

variable [DecidableEq θ] [DecidableEq A] [DecidableEq N] [DecidableEq L]

/-- One more access of a kind, known to the view. -/
def bump (latest : View θ A N) (place : Place θ A N) (view : View θ A N) : View θ A N :=
  Function.update view place (latest place + 1)

/-- The store that a load returns. The thread picks one; it is not older than the one it knows of. -/
def loaded (m : Memory θ A N L V C) (t : θ) (a : A) (pick : ℕ) : ℕ :=
  max (m.views t (.stored a)) (min pick (m.latest (.stored a)))

def loadRelaxed (m : Memory θ A N L V C) (t : θ) (a : A) (pick : ℕ) : Memory θ A N L V C × V a :=
  ({ m with views :=
      Function.update m.views t (Function.update (m.views t) (.stored a) (m.loaded t a pick)) },
    (m.history a (m.loaded t a pick)).value)

/-- A load that takes over the view of the store it returns, which knows of this store. -/
def loadAcquire (m : Memory θ A N L V C) (t : θ) (a : A) (pick : ℕ) : Memory θ A N L V C × V a :=
  let message := m.history a (m.loaded t a pick)
  ({ m with views := Function.update m.views t (m.views t ⊔ message.view) }, message.value)

/-- Appends a store to the history of a variable. -/
def append (m : Memory θ A N L V C) (t : θ) (a : A) (message : Message θ A N (V a)) :
    Memory θ A N L V C :=
  { m with
    history := Function.update m.history a
      (Function.update (m.history a) (m.latest (.stored a) + 1) message)
    latest := bump m.latest (.stored a) m.latest
    views := Function.update m.views t (bump m.latest (.stored a) (m.views t)) }

def storeRelease (m : Memory θ A N L V C) (t : θ) (a : A) (value : V a) : Memory θ A N L V C :=
  m.append t a { value := value, view := bump m.latest (.stored a) (m.views t) }

/-- A relaxed read-modify-write: it reads the newest store, whose view it hands on. -/
def modifyRelaxed (m : Memory θ A N L V C) (t : θ) (a : A) (f : V a → V a) : Memory θ A N L V C :=
  let newest := m.history a (m.latest (.stored a))
  m.append t a { value := f newest.value, view := bump m.latest (.stored a) newest.view }

/-- The view knows of every access to the variable. -/
def Knows (latest : View θ A N) (n : N) (view : View θ A N) : Prop :=
  view (.written n) = latest (.written n) ∧ ∀ u, view (.read n u) = latest (.read n u)

instance [Fintype θ] (latest : View θ A N) (n : N) (view : View θ A N) :
    Decidable (Knows latest n view) :=
  inferInstanceAs (Decidable (_ ∧ _))

/-- Reads an ordinary variable; a race when there has been a write that the thread does not know of. -/
def readCell (m : Memory θ A N L V C) (t : θ) (n : N) : Memory θ A N L V C × C n :=
  ({ m with
      latest := bump m.latest (.read n t) m.latest
      views := Function.update m.views t (bump m.latest (.read n t) (m.views t))
      racy := m.racy || !decide (m.views t (.written n) = m.latest (.written n)) },
    m.cells n)

/-- Writes an ordinary variable; a race when there has been an access that the thread does not know of. -/
def writeCell [Fintype θ] (m : Memory θ A N L V C) (t : θ) (n : N) (value : C n) :
    Memory θ A N L V C :=
  { m with
    cells := Function.update m.cells n value
    latest := bump m.latest (.written n) m.latest
    views := Function.update m.views t (bump m.latest (.written n) (m.views t))
    racy := m.racy || !decide (Knows m.latest n (m.views t)) }

/-- Takes a free lock. -/
def lock (m : Memory θ A N L V C) (t : θ) (l : L) : Memory θ A N L V C :=
  { m with
    holder := Function.update m.holder l (some t)
    views := Function.update m.views t (m.views t ⊔ m.released l) }

def unlock (m : Memory θ A N L V C) (t : θ) (l : L) : Memory θ A N L V C :=
  { m with
    holder := Function.update m.holder l none
    released := Function.update m.released l (m.views t) }

/-- Joins a thread that has returned. -/
def join (m : Memory θ A N L V C) (t u : θ) : Memory θ A N L V C :=
  { m with views := Function.update m.views t (m.views t ⊔ m.views u) }

@[simp] theorem latest_readCell (m : Memory θ A N L V C) (t : θ) (n : N) :
    (m.readCell t n).1.latest = bump m.latest (.read n t) m.latest := rfl

@[simp] theorem latest_writeCell [Fintype θ] (m : Memory θ A N L V C) (t : θ) (n : N) (value : C n) :
    (m.writeCell t n value).latest = bump m.latest (.written n) m.latest := rfl

@[simp] theorem latest_storeRelease (m : Memory θ A N L V C) (t : θ) (a : A) (value : V a) :
    (m.storeRelease t a value).latest = bump m.latest (.stored a) m.latest := rfl

@[simp] theorem latest_modifyRelaxed (m : Memory θ A N L V C) (t : θ) (a : A) (f : V a → V a) :
    (m.modifyRelaxed t a f).latest = bump m.latest (.stored a) m.latest := rfl

/-- The stores of a variable behind one more. -/
theorem history_append (m : Memory θ A N L V C) (t : θ) (a : A) (message : Message θ A N (V a)) (i : ℕ) :
    (m.append t a message).history a i =
      if i = m.latest (.stored a) + 1 then message else m.history a i := by
  show Function.update m.history a _ a i = _
  rw [Function.update_self]
  by_cases hnew : i = m.latest (.stored a) + 1
  · rw [hnew, Function.update_self, if_pos rfl]
  · rw [Function.update_of_ne hnew, if_neg hnew]

theorem history_storeRelease_value (m : Memory θ A N L V C) (t : θ) (a : A) (value : V a) (i : ℕ) :
    ((m.storeRelease t a value).history a i).value =
      if i = m.latest (.stored a) + 1 then value else (m.history a i).value := by
  unfold storeRelease
  rw [history_append]
  split_ifs <;> rfl

theorem history_modifyRelaxed_value (m : Memory θ A N L V C) (t : θ) (a : A) (f : V a → V a) (i : ℕ) :
    ((m.modifyRelaxed t a f).history a i).value =
      if i = m.latest (.stored a) + 1 then f (m.history a (m.latest (.stored a))).value
      else (m.history a i).value := by
  unfold modifyRelaxed
  rw [history_append]
  split_ifs <;> rfl

theorem history_storeRelease_of_ne (m : Memory θ A N L V C) (t : θ) {a : A} (value : V a) {b : A}
    (h : b ≠ a) : (m.storeRelease t a value).history b = m.history b :=
  Function.update_of_ne h ..

/-- The view that a release store hands on. -/
theorem view_storeRelease (m : Memory θ A N L V C) (t : θ) (a : A) (value : V a) :
    ((m.storeRelease t a value).history a (m.latest (.stored a) + 1)).view =
      bump m.latest (.stored a) (m.views t) := by
  unfold storeRelease
  rw [history_append, if_pos rfl]

theorem cells_writeCell [Fintype θ] (m : Memory θ A N L V C) (t : θ) (n : N) (value : C n) :
    (m.writeCell t n value).cells n = value :=
  Function.update_self ..

theorem cells_writeCell_of_ne [Fintype θ] (m : Memory θ A N L V C) (t : θ) {n : N} (value : C n) {n' : N}
    (h : n' ≠ n) : (m.writeCell t n value).cells n' = m.cells n' :=
  Function.update_of_ne h ..

@[simp] theorem holder_lock (m : Memory θ A N L V C) (t : θ) (l : L) : (m.lock t l).holder l = some t :=
  Function.update_self ..

@[simp] theorem holder_unlock (m : Memory θ A N L V C) (t : θ) (l : L) : (m.unlock t l).holder l = none :=
  Function.update_self ..

/-! ## Counting accesses -/

section Bump

variable {latest : View θ A N} {place : Place θ A N} {view : View θ A N}

@[simp] theorem bump_self : bump latest place view place = latest place + 1 := Function.update_self ..

theorem bump_of_ne {other : Place θ A N} (h : other ≠ place) : bump latest place view other = view other :=
  Function.update_of_ne h ..

theorem le_bump (h : view place ≤ latest place) : view ≤ bump latest place view := by
  intro other
  by_cases hother : other = place
  · subst hother
    rw [bump_self]
    exact Nat.le_succ_of_le h
  · rw [bump_of_ne hother]

theorem bump_le_bump {view' : View θ A N} (h : view ≤ view') :
    bump latest place view ≤ bump latest place view' := by
  intro other
  by_cases hother : other = place
  · subst hother
    rw [bump_self, bump_self]
  · rw [bump_of_ne hother, bump_of_ne hother]
    exact h other

theorem bump_congr {other : Place θ A N} (h : view other = latest other) :
    bump latest place view other = bump latest place latest other := by
  by_cases hother : other = place
  · rw [hother, bump_self, bump_self]
  · rw [bump_of_ne hother, bump_of_ne hother, h]

/-- The view behind one more access of a kind, be it known to the view or not. -/
def Bumped (latest : View θ A N) (place : Place θ A N) (view view' : View θ A N) : Prop :=
  view' = view ∨ view' = bump latest place view

theorem Bumped.of_ne {view' : View θ A N} (h : Bumped latest place view view') {other : Place θ A N}
    (hother : other ≠ place) : view' other = view other := by
  rcases h with rfl | rfl
  · rfl
  · exact bump_of_ne hother

theorem Bumped.le {view' : View θ A N} (h : Bumped latest place view view') (hle : view ≤ latest) :
    view' ≤ bump latest place latest := by
  rcases h with rfl | rfl
  · exact hle.trans (le_bump le_rfl)
  · exact bump_le_bump hle

end Bump

/-! ## Invariants of the views -/

/-- Every view has the property: those of the threads, those that the locks hand on, and those of the
stores. -/
structure EveryView (S : View θ A N → Prop) (m : Memory θ A N L V C) : Prop where
  views : ∀ t, S (m.views t)
  released : ∀ l, S (m.released l)
  messages : ∀ a i, i ≤ m.latest (.stored a) → S (m.history a i).view

/-- Two views that have the property have it together. -/
def Joins (S : View θ A N → View θ A N → Prop) : Prop :=
  ∀ latest view view', S latest view → S latest view' → S latest (view ⊔ view')

namespace EveryView

variable {S : View θ A N → View θ A N → Prop} {m : Memory θ A N L V C}

theorem initial (values : (a : A) → V a) (cells : (n : N) → C n) {S : View θ A N → Prop}
    (h : S fun _ => 0) :
    EveryView S (initial values cells : Memory θ A N L V C) :=
  ⟨fun _ => h, fun _ => h, fun _ _ _ => h⟩

theorem thread (h : EveryView (S m.latest) m) {t : θ} {view : View θ A N} (hview : S m.latest view) (u : θ) :
    S m.latest (Function.update m.views t view u) := by
  by_cases hu : u = t
  · subst hu
    rwa [Function.update_self]
  · rw [Function.update_of_ne hu]
    exact h.views u

theorem loadRelaxed (h : EveryView (S m.latest) m) {t : θ} {a : A} {pick : ℕ}
    (hview : S m.latest (Function.update (m.views t) (.stored a) (m.loaded t a pick))) :
    EveryView (S m.latest) (m.loadRelaxed t a pick).1 :=
  ⟨h.thread hview, h.released, h.messages⟩

theorem loaded_le {t : θ} {a : A} (h : m.views t (.stored a) ≤ m.latest (.stored a)) (pick : ℕ) :
    m.loaded t a pick ≤ m.latest (.stored a) :=
  max_le h (min_le_right _ _)

theorem loadAcquire (h : EveryView (S m.latest) m) (hjoins : Joins S) {t : θ} {a : A}
    (hle : m.views t (.stored a) ≤ m.latest (.stored a)) (pick : ℕ) :
    EveryView (S m.latest) (m.loadAcquire t a pick).1 :=
  ⟨h.thread (hjoins _ _ _ (h.views t) (h.messages a _ (loaded_le hle pick))), h.released, h.messages⟩

theorem lock (h : EveryView (S m.latest) m) (hjoins : Joins S) (t : θ) (l : L) :
    EveryView (S m.latest) (m.lock t l) :=
  ⟨h.thread (hjoins _ _ _ (h.views t) (h.released l)), h.released, h.messages⟩

theorem unlock (h : EveryView (S m.latest) m) (t : θ) (l : L) : EveryView (S m.latest) (m.unlock t l) where
  views := h.views
  messages := h.messages
  released := by
    intro l'
    show S m.latest (Function.update m.released l (m.views t) l')
    by_cases hl : l' = l
    · subst hl
      rw [Function.update_self]
      exact h.views t
    · rw [Function.update_of_ne hl]
      exact h.released l'

theorem join (h : EveryView (S m.latest) m) (hjoins : Joins S) (t u : θ) :
    EveryView (S m.latest) (m.join t u) :=
  ⟨h.thread (hjoins _ _ _ (h.views t) (h.views u)), h.released, h.messages⟩

/-- The views after one more access by a thread: the old ones keep the property, and the thread has it anew. -/
theorem bumped (h : EveryView (S m.latest) m) {place : Place θ A N} {t : θ}
    (hold : ∀ view, S m.latest view → S (bump m.latest place m.latest) view)
    (hnew : S (bump m.latest place m.latest) (bump m.latest place (m.views t))) (u : θ) :
    S (bump m.latest place m.latest)
      (Function.update m.views t (bump m.latest place (m.views t)) u) := by
  by_cases hu : u = t
  · subst hu
    rwa [Function.update_self]
  · rw [Function.update_of_ne hu]
    exact hold _ (h.views u)

theorem readCell (h : EveryView (S m.latest) m) {t : θ} {n : N}
    (hold : ∀ view, S m.latest view → S (bump m.latest (.read n t) m.latest) view)
    (hnew : S (bump m.latest (.read n t) m.latest) (bump m.latest (.read n t) (m.views t))) :
    EveryView (S (m.readCell t n).1.latest) (m.readCell t n).1 where
  views := h.bumped hold hnew
  released := fun l => hold _ (h.released l)
  messages := by
    intro a i hi
    change i ≤ bump m.latest (.read n t) m.latest (.stored a) at hi
    rw [bump_of_ne (by simp)] at hi
    exact hold _ (h.messages a i hi)

theorem writeCell [Fintype θ] (h : EveryView (S m.latest) m) {t : θ} {n : N}
    (hold : ∀ view, S m.latest view → S (bump m.latest (.written n) m.latest) view)
    (hnew : S (bump m.latest (.written n) m.latest) (bump m.latest (.written n) (m.views t)))
    (value : C n) : EveryView (S (m.writeCell t n value).latest) (m.writeCell t n value) where
  views := h.bumped hold hnew
  released := fun l => hold _ (h.released l)
  messages := by
    intro a i hi
    change i ≤ bump m.latest (.written n) m.latest (.stored a) at hi
    rw [bump_of_ne (by simp)] at hi
    exact hold _ (h.messages a i hi)

theorem append (h : EveryView (S m.latest) m) {t : θ} {a : A} {message : Message θ A N (V a)}
    (hold : ∀ view, S m.latest view → S (bump m.latest (.stored a) m.latest) view)
    (hnew : S (bump m.latest (.stored a) m.latest) (bump m.latest (.stored a) (m.views t)))
    (hmessage : S (bump m.latest (.stored a) m.latest) message.view) :
    EveryView (S (m.append t a message).latest) (m.append t a message) where
  views := h.bumped hold hnew
  released := fun l => hold _ (h.released l)
  messages := by
    intro b i hi
    show S (bump m.latest (.stored a) m.latest) (Function.update m.history a _ b i).view
    change i ≤ bump m.latest (.stored a) m.latest (.stored b) at hi
    by_cases hb : b = a
    · subst hb
      rw [bump_self] at hi
      rw [Function.update_self]
      by_cases hnew : i = m.latest (.stored b) + 1
      · rw [hnew, Function.update_self]
        exact hmessage
      · rw [Function.update_of_ne hnew]
        exact hold _ (h.messages b i (by omega))
    · rw [bump_of_ne (by simpa using hb)] at hi
      rw [Function.update_of_ne hb]
      exact hold _ (h.messages b i hi)

end EveryView

/-- No view knows of more than has happened, and a store hands on a view that knows of itself and of no newer
store of its variable. -/
structure Coherent (m : Memory θ A N L V C) : Prop where
  le : EveryView (fun view => view ≤ m.latest) m
  self : ∀ a i, i ≤ m.latest (.stored a) → (m.history a i).view (.stored a) = i

theorem joins_le : Joins fun (latest view : View θ A N) => view ≤ latest :=
  fun _ _ _ h h' => sup_le h h'

namespace Coherent

variable {m : Memory θ A N L V C}

theorem initial (values : (a : A) → V a) (cells : (n : N) → C n) :
    (initial values cells : Memory θ A N L V C).Coherent where
  le := EveryView.initial values cells le_rfl
  self := fun _ _ hi => (Nat.le_zero.mp hi).symm

theorem loaded_le (h : m.Coherent) (t : θ) (a : A) (pick : ℕ) : m.loaded t a pick ≤ m.latest (.stored a) :=
  EveryView.loaded_le (h.le.views t _) pick

theorem loadRelaxed (h : m.Coherent) (t : θ) (a : A) (pick : ℕ) : (m.loadRelaxed t a pick).1.Coherent := by
  refine ⟨EveryView.loadRelaxed (S := fun latest view => view ≤ latest) h.le fun place => ?_, h.self⟩
  by_cases hplace : place = .stored a
  · subst hplace
    rw [Function.update_self]
    exact h.loaded_le t a pick
  · rw [Function.update_of_ne hplace]
    exact h.le.views t place

theorem loadAcquire (h : m.Coherent) (t : θ) (a : A) (pick : ℕ) : (m.loadAcquire t a pick).1.Coherent :=
  ⟨EveryView.loadAcquire (S := fun latest view => view ≤ latest) h.le joins_le (h.le.views t _) pick, h.self⟩

/-- A load may return the newest store. -/
theorem loaded_newest (h : m.Coherent) (t : θ) {a : A} {pick : ℕ} (hpick : m.latest (.stored a) ≤ pick) :
    m.loaded t a pick = m.latest (.stored a) := by
  unfold Memory.loaded
  rw [Nat.min_eq_right hpick]
  exact max_eq_right (h.le.views t _)

/-- The thread knows of the store that it has loaded. -/
theorem loadAcquire_view (h : m.Coherent) (t : θ) (a : A) (pick : ℕ) :
    (m.loadAcquire t a pick).1.views t (.stored a) = m.loaded t a pick := by
  show Function.update m.views t _ t (.stored a) = _
  rw [Function.update_self]
  show max (m.views t (.stored a)) ((m.history a (m.loaded t a pick)).view (.stored a)) = _
  rw [h.self a _ (h.loaded_le t a pick)]
  exact max_eq_right (le_max_left _ _)

/-- A thread that knows of the newest store loads it, and learns nothing from a relaxed load. -/
theorem loadRelaxed_own (h : m.Coherent) {t : θ} {a : A}
    (hown : m.views t (.stored a) = m.latest (.stored a)) (pick : ℕ) :
    m.loadRelaxed t a pick = (m, (m.history a (m.latest (.stored a))).value) := by
  have hloaded : m.loaded t a pick = m.latest (.stored a) :=
    le_antisymm (h.loaded_le t a pick) (hown ▸ le_max_left _ _)
  unfold Memory.loadRelaxed
  rw [hloaded, ← hown, Function.update_eq_self, Function.update_eq_self]

theorem lock (h : m.Coherent) (t : θ) (l : L) : (m.lock t l).Coherent :=
  ⟨EveryView.lock (S := fun latest view => view ≤ latest) h.le joins_le t l, h.self⟩

theorem unlock (h : m.Coherent) (t : θ) (l : L) : (m.unlock t l).Coherent :=
  ⟨EveryView.unlock (S := fun latest view => view ≤ latest) h.le t l, h.self⟩

theorem join (h : m.Coherent) (t u : θ) : (m.join t u).Coherent :=
  ⟨EveryView.join (S := fun latest view => view ≤ latest) h.le joins_le t u, h.self⟩

theorem readCell (h : m.Coherent) (t : θ) (n : N) : (m.readCell t n).1.Coherent where
  le := EveryView.readCell (S := fun latest view => view ≤ latest) h.le
    (fun _ hle => hle.trans (le_bump le_rfl)) (bump_le_bump (h.le.views t))
  self := by
    intro a i hi
    change i ≤ bump m.latest (.read n t) m.latest (.stored a) at hi
    rw [bump_of_ne (by simp)] at hi
    exact h.self a i hi

theorem writeCell [Fintype θ] (h : m.Coherent) (t : θ) (n : N) (value : C n) :
    (m.writeCell t n value).Coherent where
  le := EveryView.writeCell (S := fun latest view => view ≤ latest) h.le
    (fun _ hle => hle.trans (le_bump le_rfl)) (bump_le_bump (h.le.views t)) value
  self := by
    intro a i hi
    change i ≤ bump m.latest (.written n) m.latest (.stored a) at hi
    rw [bump_of_ne (by simp)] at hi
    exact h.self a i hi

theorem append (h : m.Coherent) {t : θ} {a : A} {message : Message θ A N (V a)}
    (hle : message.view ≤ bump m.latest (.stored a) m.latest)
    (hself : message.view (.stored a) = m.latest (.stored a) + 1) : (m.append t a message).Coherent where
  le := EveryView.append (S := fun latest view => view ≤ latest) h.le
    (fun _ hold => hold.trans (le_bump le_rfl)) (bump_le_bump (h.le.views t)) hle
  self := by
    intro b i hi
    show (Function.update m.history a _ b i).view (.stored b) = i
    change i ≤ bump m.latest (.stored a) m.latest (.stored b) at hi
    by_cases hb : b = a
    · subst hb
      rw [bump_self] at hi
      rw [Function.update_self]
      by_cases hnew : i = m.latest (.stored b) + 1
      · rw [hnew, Function.update_self]
        exact hself
      · rw [Function.update_of_ne hnew]
        exact h.self b i (by omega)
    · rw [bump_of_ne (by simpa using hb)] at hi
      rw [Function.update_of_ne hb]
      exact h.self b i hi

theorem storeRelease (h : m.Coherent) (t : θ) (a : A) (value : V a) : (m.storeRelease t a value).Coherent :=
  h.append (bump_le_bump (h.le.views t)) bump_self

theorem modifyRelaxed (h : m.Coherent) (t : θ) (a : A) (f : V a → V a) :
    (m.modifyRelaxed t a f).Coherent :=
  h.append (bump_le_bump (h.le.messages a _ le_rfl)) bump_self

end Coherent

/-! ## What an access leaves alone -/

/-- From `m` to `m'` there have been accesses of these kinds only, and no thread has forgotten anything. -/
structure Touches (m m' : Memory θ A N L V C) (P : Place θ A N → Prop) : Prop where
  coherent : m'.Coherent
  grows : ∀ t, m.views t ≤ m'.views t
  latest : ∀ place, ¬ P place → m'.latest place = m.latest place
  history : ∀ a, ¬ P (.stored a) → m'.history a = m.history a
  cells : ∀ n, ¬ P (.written n) → m'.cells n = m.cells n

section Touches

variable {m m' m'' : Memory θ A N L V C} {P Q : Place θ A N → Prop}

theorem Coherent.touches_refl (h : m.Coherent) : Touches m m P :=
  ⟨h, fun _ => le_rfl, fun _ _ => rfl, fun _ _ => rfl, fun _ _ => rfl⟩

theorem Touches.mono (h : Touches m m' P) (hsub : ∀ place, P place → Q place) : Touches m m' Q where
  coherent := h.coherent
  grows := h.grows
  latest := fun place hplace => h.latest place fun hp => hplace (hsub place hp)
  history := fun a ha => h.history a fun hp => ha (hsub _ hp)
  cells := fun n hn => h.cells n fun hp => hn (hsub _ hp)

theorem Touches.trans (h : Touches m m' P) (h' : Touches m' m'' P) : Touches m m'' P where
  coherent := h'.coherent
  grows := fun t => (h.grows t).trans (h'.grows t)
  latest := fun place hplace => (h'.latest place hplace).trans (h.latest place hplace)
  history := fun a ha => (h'.history a ha).trans (h.history a ha)
  cells := fun n hn => (h'.cells n hn).trans (h.cells n hn)

/-- What a thread knows completely it still does when there has been nothing new. -/
theorem Touches.own (h : Touches m m' P) {t : θ} {place : Place θ A N} (hplace : ¬ P place)
    (hown : m.views t place = m.latest place) : m'.views t place = m'.latest place := by
  refine le_antisymm (h.coherent.le.views t place) ?_
  rw [h.latest place hplace, ← hown]
  exact h.grows t place

theorem grows_thread {t : θ} {view : View θ A N} (h : m.views t ≤ view) (u : θ) :
    m.views u ≤ Function.update m.views t view u := by
  by_cases hu : u = t
  · subst hu
    rwa [Function.update_self]
  · rw [Function.update_of_ne hu]

namespace Coherent

theorem touches_loadAcquire (h : m.Coherent) (t : θ) (a : A) (pick : ℕ) :
    Touches m (m.loadAcquire t a pick).1 fun _ => False :=
  ⟨h.loadAcquire t a pick, grows_thread le_sup_left, fun _ _ => rfl, fun _ _ => rfl, fun _ _ => rfl⟩

theorem touches_lock (h : m.Coherent) (t : θ) (l : L) : Touches m (m.lock t l) fun _ => False :=
  ⟨h.lock t l, grows_thread le_sup_left, fun _ _ => rfl, fun _ _ => rfl, fun _ _ => rfl⟩

theorem touches_unlock (h : m.Coherent) (t : θ) (l : L) : Touches m (m.unlock t l) fun _ => False :=
  ⟨h.unlock t l, fun _ => le_rfl, fun _ _ => rfl, fun _ _ => rfl, fun _ _ => rfl⟩

theorem touches_join (h : m.Coherent) (t u : θ) : Touches m (m.join t u) fun _ => False :=
  ⟨h.join t u, grows_thread le_sup_left, fun _ _ => rfl, fun _ _ => rfl, fun _ _ => rfl⟩

theorem touches_readCell (h : m.Coherent) (t : θ) (n : N) :
    Touches m (m.readCell t n).1 (· = .read n t) where
  coherent := h.readCell t n
  grows := grows_thread (le_bump (h.le.views t _))
  latest := fun _ hplace => bump_of_ne hplace
  history := fun _ _ => rfl
  cells := fun _ _ => rfl

theorem touches_writeCell [Fintype θ] (h : m.Coherent) (t : θ) (n : N) (value : C n) :
    Touches m (m.writeCell t n value) (· = .written n) where
  coherent := h.writeCell t n value
  grows := grows_thread (le_bump (h.le.views t _))
  latest := fun _ hplace => bump_of_ne hplace
  history := fun _ _ => rfl
  cells := fun n' hn => Function.update_of_ne (fun heq : n' = n => hn (congrArg _ heq)) ..

theorem touches_append (h : m.Coherent) {t : θ} {a : A} {message : Message θ A N (V a)}
    (hcoherent : (m.append t a message).Coherent) : Touches m (m.append t a message) (· = .stored a) where
  coherent := hcoherent
  grows := grows_thread (le_bump (h.le.views t _))
  latest := fun _ hplace => bump_of_ne hplace
  history := fun b hb => Function.update_of_ne (fun heq : b = a => hb (congrArg _ heq)) ..
  cells := fun _ _ => rfl

theorem touches_storeRelease (h : m.Coherent) (t : θ) (a : A) (value : V a) :
    Touches m (m.storeRelease t a value) (· = .stored a) :=
  h.touches_append (h.storeRelease t a value)

theorem touches_modifyRelaxed (h : m.Coherent) (t : θ) (a : A) (f : V a → V a) :
    Touches m (m.modifyRelaxed t a f) (· = .stored a) :=
  h.touches_append (h.modifyRelaxed t a f)

end Coherent

end Touches

/-! ## The accesses to one variable -/

section Knows

variable {m m' : Memory θ A N L V C} {n : N} {latest view view' : View θ A N}

theorem Knows.mono (h : Knows latest n view) (hview : view ≤ view') (hle : view' ≤ latest) :
    Knows latest n view' :=
  ⟨le_antisymm (hle _) (h.1 ▸ hview _), fun u => le_antisymm (hle _) (h.2 u ▸ hview _)⟩

/-- The thread still knows of every access when there has been no other. -/
theorem Knows.frame {P : Place θ A N → Prop} {t : θ} (h : Knows m.latest n (m.views t))
    (htouches : Touches m m' P) (hwritten : ¬ P (.written n)) (hread : ∀ u, ¬ P (.read n u)) :
    Knows m'.latest n (m'.views t) :=
  ⟨htouches.own hwritten h.1, fun u => htouches.own (hread u) (h.2 u)⟩

/-- One more access in this knowledge keeps it. -/
theorem Knows.bump (h : Knows latest n view) (place : Place θ A N) :
    Knows (bump latest place latest) n (Memory.bump latest place view) :=
  ⟨bump_congr h.1, fun u => bump_congr (h.2 u)⟩

/-- A thread that knows of every access reads the variable without a race, and knows of its read. -/
theorem Knows.readCell {t : θ} (h : Knows m.latest n (m.views t)) :
    Knows (m.readCell t n).1.latest n ((m.readCell t n).1.views t) ∧ (m.readCell t n).1.racy = m.racy := by
  refine ⟨?_, ?_⟩
  · show Knows _ n (Function.update m.views t _ t)
    rw [Function.update_self]
    exact h.bump _
  · show (m.racy || !decide _) = m.racy
    rw [decide_eq_true h.1, Bool.not_true, Bool.or_false]

/-- A thread that knows of every access writes the variable without a race, and knows of its write. -/
theorem Knows.writeCell [Fintype θ] {t : θ} (h : Knows m.latest n (m.views t)) (value : C n) :
    Knows (m.writeCell t n value).latest n ((m.writeCell t n value).views t) ∧
      (m.writeCell t n value).racy = m.racy := by
  refine ⟨?_, ?_⟩
  · show Knows _ n (Function.update m.views t _ t)
    rw [Function.update_self]
    exact h.bump _
  · show (m.racy || !decide _) = m.racy
    rw [decide_eq_true h, Bool.not_true, Bool.or_false]

end Knows

/-! ## Variables behind a lock -/

/-- Who holds the lock knows of every access to the variable, and the free lock hands this on. -/
structure Guarded (m : Memory θ A N L V C) (l : L) (n : N) : Prop where
  held : ∀ t, m.holder l = some t → Knows m.latest n (m.views t)
  free : m.holder l = none → Knows m.latest n (m.released l)

namespace Guarded

variable {m m' : Memory θ A N L V C} {l : L} {n : N}

theorem initial (values : (a : A) → V a) (cells : (n : N) → C n) (l : L) (n : N) :
    Guarded (initial values cells : Memory θ A N L V C) l n :=
  ⟨fun _ _ => ⟨rfl, fun _ => rfl⟩, fun _ => ⟨rfl, fun _ => rfl⟩⟩

theorem frame {P : Place θ A N → Prop} (h : Guarded m l n) (htouches : Touches m m' P)
    (hwritten : ¬ P (.written n)) (hread : ∀ u, ¬ P (.read n u)) (hholder : m'.holder l = m.holder l)
    (hreleased : m'.released l = m.released l) : Guarded m' l n where
  held := fun t ht => (h.held t (hholder ▸ ht)).frame htouches hwritten hread
  free := by
    intro hfree
    have hknows := h.free (hholder ▸ hfree)
    rw [hreleased]
    exact ⟨hknows.1.trans (htouches.latest _ hwritten).symm,
      fun u => (hknows.2 u).trans (htouches.latest _ (hread u)).symm⟩

theorem lock (h : Guarded m l n) (hcoherent : m.Coherent) (hfree : m.holder l = none) (t : θ) :
    Guarded (m.lock t l) l n := by
  have hholder : (m.lock t l).holder l = some t := holder_lock m t l
  refine ⟨fun u hu => ?_, fun hnone => absurd (hholder.symm.trans hnone) (by simp)⟩
  obtain rfl : t = u := Option.some.inj (hholder.symm.trans hu)
  have hview : m.released l ≤ (m.lock t l).views t := by
    show _ ≤ Function.update m.views t _ t
    rw [Function.update_self]
    exact le_sup_right
  exact (h.free hfree).mono hview ((hcoherent.lock t l).le.views t)

theorem unlock (h : Guarded m l n) {t : θ} (hheld : m.holder l = some t) : Guarded (m.unlock t l) l n := by
  have hholder : (m.unlock t l).holder l = none := holder_unlock m t l
  refine ⟨fun u hu => absurd (hholder.symm.trans hu) (by simp), fun _ => ?_⟩
  show Knows m.latest n (Function.update m.released l _ l)
  rw [Function.update_self]
  exact h.held t hheld

/-- The holder reads the variable without a race. -/
theorem readCell (h : Guarded m l n) {t : θ} (hheld : m.holder l = some t) :
    Guarded (m.readCell t n).1 l n ∧ (m.readCell t n).1.racy = m.racy := by
  obtain ⟨hknows, hracy⟩ := (h.held t hheld).readCell
  refine ⟨⟨fun u hu => ?_, fun hnone => absurd (hheld.symm.trans hnone) (by simp)⟩, hracy⟩
  obtain rfl : t = u := Option.some.inj (hheld.symm.trans hu)
  exact hknows

/-- The holder writes the variable without a race. -/
theorem writeCell [Fintype θ] (h : Guarded m l n) {t : θ} (hheld : m.holder l = some t) (value : C n) :
    Guarded (m.writeCell t n value) l n ∧ (m.writeCell t n value).racy = m.racy := by
  obtain ⟨hknows, hracy⟩ := (h.held t hheld).writeCell value
  refine ⟨⟨fun u hu => ?_, fun hnone => absurd (hheld.symm.trans hnone) (by simp)⟩, hracy⟩
  obtain rfl : t = u := Option.some.inj (hheld.symm.trans hu)
  exact hknows

end Guarded

end Memory

end ReleaseAcquire

import Mathlib.Algebra.BigOperators.Group.List.Basic
import Mathlib.Algebra.Order.Ring.Nat

/-!
# A fair counting semaphore

An acquisition takes the permits it needs, or all that are free and queues for the rest.
Released permits go to the queue first, in its order, and only what the queue does not need
becomes free. A request that has all its permits is granted until its owner takes it. No
permit is lost or made up, and no request overtakes another.
-/

namespace ZeroCode.Foundation

/-- A request in the queue: the permits it lacks, and those set aside for it. -/
structure Waiter (W : Type*) where
  id : W
  missing : ℕ
  acquired : ℕ
  deriving DecidableEq, Repr

/-- The free permits, the requests that have been granted and not taken, and the queue. -/
structure Semaphore (W : Type*) where
  permits : ℕ
  granted : List (W × ℕ)
  queue : List (Waiter W)
  deriving DecidableEq, Repr

namespace Semaphore

variable {W : Type*}

/-- A semaphore nobody has asked. -/
def new (permits : ℕ) : Semaphore W := ⟨permits, [], []⟩

/-- Ask for permits. -/
def acquire (s : Semaphore W) (id : W) (needed : ℕ) : Semaphore W :=
  if needed ≤ s.permits then { s with permits := s.permits - needed, granted := s.granted ++ [(id, needed)] }
  else { s with permits := 0, queue := s.queue ++ [⟨id, needed - s.permits, s.permits⟩] }

/-- Hand released permits to the queue: what is left of them, who got all of theirs, and the queue. -/
def serve : ℕ → List (Waiter W) → ℕ × List (W × ℕ) × List (Waiter W)
  | rem, [] => (rem, [], [])
  | rem, w :: rest =>
    if w.missing ≤ rem then
      let served := serve (rem - w.missing) rest
      (served.1, (w.id, w.acquired + w.missing) :: served.2.1, served.2.2)
    else (0, [], { w with missing := w.missing - rem, acquired := w.acquired + rem } :: rest)

/-- Give permits back. -/
def release (s : Semaphore W) (count : ℕ) : Semaphore W :=
  let served := serve count s.queue
  ⟨s.permits + served.1, s.granted ++ served.2.1, served.2.2⟩

/-- Take the permits of a granted request. -/
def take [DecidableEq W] (s : Semaphore W) (id : W) : Option (ℕ × Semaphore W) :=
  (s.granted.find? fun g => g.1 = id).map fun g => (g.2, { s with granted := s.granted.erase g })

/-- The permits nobody has taken: the free ones and those set aside. -/
def available (s : Semaphore W) : ℕ :=
  s.permits + (s.granted.map Prod.snd).sum + (s.queue.map Waiter.acquired).sum

/-- All requests that have not been taken, in the order of their arrival, with what they need. -/
def line (s : Semaphore W) : List (W × ℕ) := s.granted ++ s.queue.map fun w => (w.id, w.acquired + w.missing)

/-- Permits are free only while nobody queues, everyone in the queue lacks some, and only the first has got
any. -/
structure Tight (s : Semaphore W) : Prop where
  free : s.permits = 0 ∨ s.queue = []
  missing : ∀ w ∈ s.queue, 0 < w.missing
  first : ∀ w ∈ s.queue.tail, w.acquired = 0

/-- A new semaphore is tight. -/
theorem tight_new (permits : ℕ) : (new permits : Semaphore W).Tight :=
  ⟨Or.inr rfl, nofun, nofun⟩

/-- Asking leaves the permits that nobody has taken as they are. -/
@[simp]
theorem available_acquire (s : Semaphore W) (id : W) (needed : ℕ) :
    (s.acquire id needed).available = s.available := by
  unfold acquire
  split
  · simp only [available, List.map_append, List.sum_append, List.map_cons, List.map_nil, List.sum_singleton]
    omega
  · simp only [available, List.map_append, List.sum_append, List.map_cons, List.map_nil, List.sum_singleton]
    omega

/-- The queue gets what it is handed, but for the rest. -/
theorem sum_serve (rem : ℕ) (queue : List (Waiter W)) :
    (serve rem queue).1 + ((serve rem queue).2.1.map Prod.snd).sum + ((serve rem queue).2.2.map Waiter.acquired).sum =
      rem + (queue.map Waiter.acquired).sum := by
  induction queue generalizing rem with
  | nil => simp [serve]
  | cons w rest ih =>
    rw [serve]
    split
    · have hrest := ih (rem - w.missing)
      simp only [List.map_cons, List.sum_cons]
      omega
    · simp only [List.map_cons, List.map_nil, List.sum_cons, List.sum_nil]
      omega

/-- What is given back is there again. -/
@[simp]
theorem available_release (s : Semaphore W) (count : ℕ) : (s.release count).available = s.available + count := by
  have hserve := sum_serve count s.queue
  simp only [available, release, List.map_append, List.sum_append]
  omega

/-- The order of the requests is kept while the queue is served. -/
theorem line_serve (rem : ℕ) (queue : List (Waiter W)) :
    (serve rem queue).2.1 ++ (serve rem queue).2.2.map (fun w => (w.id, w.acquired + w.missing)) =
      queue.map fun w => (w.id, w.acquired + w.missing) := by
  induction queue generalizing rem with
  | nil => rfl
  | cons w rest ih =>
    rw [serve]
    split
    · rw [List.map_cons, List.cons_append, ih]
    · rename_i hlacks
      have hsum : w.acquired + rem + (w.missing - rem) = w.acquired + w.missing := by omega
      simp [hsum]

/-- Giving back moves nobody in the line. -/
@[simp]
theorem line_release (s : Semaphore W) (count : ℕ) : (s.release count).line = s.line := by
  simp only [line, release, List.append_assoc, line_serve]

/-- A request queues up at the end of the line. -/
theorem line_acquire {s : Semaphore W} (h : s.Tight) (id : W) {needed : ℕ} (hpos : 0 < needed) :
    (s.acquire id needed).line = s.line ++ [(id, needed)] := by
  unfold acquire
  split
  · rename_i hfits
    have hqueue : s.queue = [] := h.free.resolve_left (by omega)
    simp [line, hqueue]
  · rename_i hlacks
    have hsum : s.permits + (needed - s.permits) = needed := by omega
    simp [line, hsum]

/-- Asking for permits keeps the semaphore tight. -/
theorem Tight.acquire {s : Semaphore W} (h : s.Tight) (id : W) {needed : ℕ} (hpos : 0 < needed) :
    (s.acquire id needed).Tight := by
  unfold Semaphore.acquire
  split
  · rename_i hfits
    have hqueue : s.queue = [] := h.free.resolve_left (by omega)
    exact ⟨Or.inr hqueue, h.missing, h.first⟩
  · rename_i hlacks
    refine ⟨Or.inl rfl, fun w hw => ?_, fun w hw => ?_⟩
    · rcases List.mem_append.mp hw with hold | hnew
      · exact h.missing w hold
      · rw [List.mem_singleton.mp hnew]
        exact Nat.sub_pos_of_lt (Nat.lt_of_not_le hlacks)
    · -- permits are set aside for a request behind others only if some were free
      cases hqueue : s.queue with
      | nil =>
        simp only [hqueue, List.nil_append, List.tail_cons] at hw
        cases hw
      | cons first rest =>
        have hnone : s.permits = 0 := h.free.resolve_right (by rw [hqueue]; exact List.cons_ne_nil _ _)
        have hfirst := h.first
        simp only [hqueue, List.cons_append, List.tail_cons, List.mem_append, List.mem_singleton] at hw hfirst
        rcases hw with hold | rfl
        · exact hfirst w hold
        · exact hnone

/-- A queue that was served is as tight as before. -/
theorem tight_serve (rem : ℕ) {queue : List (Waiter W)} (hmissing : ∀ w ∈ queue, 0 < w.missing)
    (hfirst : ∀ w ∈ queue.tail, w.acquired = 0) :
    ((serve rem queue).1 = 0 ∨ (serve rem queue).2.2 = []) ∧ (∀ w ∈ (serve rem queue).2.2, 0 < w.missing) ∧
      ∀ w ∈ (serve rem queue).2.2.tail, w.acquired = 0 := by
  induction queue generalizing rem with
  | nil => exact ⟨Or.inr rfl, nofun, nofun⟩
  | cons w rest ih =>
    obtain ⟨hw, hrest⟩ := List.forall_mem_cons.mp hmissing
    rw [serve]
    split
    · exact ih (rem - w.missing) hrest fun w' hw' => hfirst w' (List.mem_of_mem_tail hw')
    · rename_i hlacks
      refine ⟨Or.inl rfl, List.forall_mem_cons.mpr ⟨?_, hrest⟩, hfirst⟩
      exact Nat.sub_pos_of_lt (Nat.lt_of_not_le hlacks)

/-- Giving permits back keeps the semaphore tight. -/
theorem Tight.release {s : Semaphore W} (h : s.Tight) (count : ℕ) : (s.release count).Tight := by
  obtain ⟨hfree, hmissing, hfirst⟩ := tight_serve count h.missing h.first
  refine ⟨?_, hmissing, hfirst⟩
  rcases h.free with hnone | hqueue
  · rcases hfree with hrem | hserved
    · exact Or.inl (by simp [Semaphore.release, hnone, hrem])
    · exact Or.inr hserved
  · exact Or.inr (by simp [Semaphore.release, hqueue, serve])

/-- With nobody in the line, all permits that are not taken are free. -/
theorem available_of_line_nil {s : Semaphore W} (h : s.line = []) : s.available = s.permits := by
  obtain ⟨hgranted, hqueue⟩ := List.append_eq_nil_iff.mp h
  simp [available, hgranted, List.map_eq_nil_iff.mp hqueue]

section Take

variable [DecidableEq W]

/-- Only a granted request is taken, and nothing else changes. -/
theorem take_spec {s t : Semaphore W} {id : W} {count : ℕ} (h : s.take id = some (count, t)) :
    (id, count) ∈ s.granted ∧ t = { s with granted := s.granted.erase (id, count) } := by
  obtain ⟨g, hfind, heq⟩ := Option.map_eq_some_iff.mp h
  have hid : g.1 = id := by simpa using List.find?_some hfind
  obtain ⟨rfl, rfl⟩ := Prod.mk.inj heq
  subst hid
  exact ⟨List.mem_of_find?_eq_some hfind, rfl⟩

/-- What a request takes is no longer available. -/
theorem available_of_take {s t : Semaphore W} {id : W} {count : ℕ} (h : s.take id = some (count, t)) :
    t.available + count = s.available := by
  obtain ⟨hmem, rfl⟩ := take_spec h
  have hsum := ((List.perm_cons_erase hmem).map Prod.snd).sum_eq
  simp only [List.map_cons, List.sum_cons] at hsum
  simp only [available]
  omega

/-- The request leaves the line. -/
theorem line_of_take {s t : Semaphore W} {id : W} {count : ℕ} (h : s.take id = some (count, t)) :
    (id, count) ∈ s.line ∧ t.line = s.line.erase (id, count) := by
  obtain ⟨hmem, rfl⟩ := take_spec h
  exact ⟨List.mem_append_left _ hmem, (List.erase_append_left _ hmem).symm⟩

/-- Taking keeps the semaphore tight. -/
theorem Tight.take {s t : Semaphore W} {id : W} {count : ℕ} (h : s.Tight) (htake : s.take id = some (count, t)) :
    t.Tight := by
  obtain ⟨_, rfl⟩ := take_spec htake
  exact ⟨h.free, h.missing, h.first⟩

/-- The first request in the line can be taken as soon as enough permits are not taken by others. -/
theorem exists_take_of_head {s : Semaphore W} (h : s.Tight) {id : W} {needed : ℕ}
    (hhead : s.line.head? = some (id, needed)) (hfits : needed ≤ s.available) :
    ∃ t, s.take id = some (needed, t) := by
  cases hgranted : s.granted with
  | cons g rest =>
    simp only [line, hgranted, List.cons_append, List.head?_cons, Option.some.injEq] at hhead
    subst hhead
    exact ⟨_, by simp [take, hgranted]; rfl⟩
  | nil =>
    cases hqueue : s.queue with
    | nil => simp [line, hgranted, hqueue] at hhead
    | cons w rest =>
      -- the head of the queue would have been served
      have hmissing := h.missing w (by rw [hqueue]; exact List.mem_cons_self)
      have hpermits : s.permits = 0 := h.free.resolve_right (by rw [hqueue]; exact List.cons_ne_nil _ _)
      have hrest : (rest.map Waiter.acquired).sum = 0 := by
        have hfirst := h.first
        rw [hqueue, List.tail_cons] at hfirst
        exact List.sum_eq_zero (by simpa using hfirst)
      simp only [line, hgranted, hqueue, List.nil_append, List.map_cons, List.head?_cons, Option.some.injEq,
        Prod.mk.injEq] at hhead
      simp only [available, hgranted, hqueue, hpermits, hrest, List.map_nil, List.map_cons, List.sum_nil,
        List.sum_cons] at hfits
      omega

end Take

end Semaphore

end ZeroCode.Foundation

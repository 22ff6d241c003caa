/-! # Runs

A run performs operations one after another, each on the state the one before has left, and
collects the replies.  What a step preserves a run preserves (`run_preserves`), and two machines
that reply alike step by step, in states that stay related, reply alike in every run
(`run_simulates`).  What the operations and their replies amount to is a list of events, and
events that each step numbers in order are numbered in order by a run (`map_events_eq_range'`).
What is found in the states on the way is gathered into a history (`history_append`), and the
largest size that they come to is the peak, by which a bound may be given (`run_within_peak`).

A machine whose steps may fail breaks a run off at the first one that does; as long as its steps do
what those of another do, so does the run (`run?_eq_some`). -/

namespace ExpressModel

universe u v w x

variable {ι : Type u} {ρ : Type v} {σ τ : Type w}

/-- Performs the operations in order; the answer is the list of replies. -/
def run (perform : ι → σ → ρ × σ) : List ι → σ → List ρ × σ
  | [], s => ([], s)
  | op :: ops, s =>
    let (reply, s) := perform op s
    let (replies, s) := run perform ops s
    (reply :: replies, s)

@[simp] theorem run_cons_replies (perform : ι → σ → ρ × σ) (op : ι) (ops : List ι) (s : σ) :
    (run perform (op :: ops) s).1 = (perform op s).1 :: (run perform ops (perform op s).2).1 := rfl

@[simp] theorem run_cons_state (perform : ι → σ → ρ × σ) (op : ι) (ops : List ι) (s : σ) :
    (run perform (op :: ops) s).2 = (run perform ops (perform op s).2).2 := rfl

theorem run_append_state (perform : ι → σ → ρ × σ) (ops later : List ι) (s : σ) :
    (run perform (ops ++ later) s).2 = (run perform later (run perform ops s).2).2 := by
  induction ops generalizing s with
  | nil => rfl
  | cons op ops ih => exact ih (perform op s).2

theorem run_preserves {perform : ι → σ → ρ × σ} {P : σ → Prop}
    (hstep : ∀ op s, P s → P (perform op s).2) (ops : List ι) {s : σ} (h : P s) :
    P (run perform ops s).2 := by
  induction ops generalizing s with
  | nil => exact h
  | cons op ops ih => exact ih (hstep op s h)

/-- Every operation of a run satisfies a condition in the state that it is performed in. -/
def Along (perform : ι → σ → ρ × σ) (P : ι → σ → Prop) : List ι → σ → Prop
  | [], _ => True
  | op :: ops, s => P op s ∧ Along perform P ops (perform op s).2

/-- What every step under a condition preserves is preserved by a run of such steps. -/
theorem run_preserves_along {perform : ι → σ → ρ × σ} {P : ι → σ → Prop} {Q : σ → Prop}
    (hstep : ∀ op s, P op s → Q s → Q (perform op s).2) (ops : List ι) {s : σ}
    (halong : Along perform P ops s) (h : Q s) : Q (run perform ops s).2 := by
  induction ops generalizing s with
  | nil => exact h
  | cons op ops ih =>
      obtain ⟨hop, hops⟩ := halong
      exact ih hops (hstep op s hop h)

/-- Machines that reply alike in related states, and stay related, reply alike in every run. -/
theorem run_simulates {perform : ι → σ → ρ × σ} {perform' : ι → τ → ρ × τ} {R : σ → τ → Prop}
    (hstep : ∀ op s t, R s t →
      (perform op s).1 = (perform' op t).1 ∧ R (perform op s).2 (perform' op t).2)
    (ops : List ι) {s : σ} {t : τ} (h : R s t) :
    (run perform ops s).1 = (run perform' ops t).1 ∧
      R (run perform ops s).2 (run perform' ops t).2 := by
  induction ops generalizing s t with
  | nil => exact ⟨rfl, h⟩
  | cons op ops ih =>
      obtain ⟨hreply, hrel⟩ := hstep op s t h
      obtain ⟨hreplies, hfinal⟩ := ih hrel
      refine ⟨?_, hfinal⟩
      rw [run_cons_replies, run_cons_replies, hreply, hreplies]

/-- A condition on the states of one machine is one on those of another that they are related
to. -/
theorem along_simulates {perform : ι → σ → ρ × σ} {perform' : ι → τ → ρ × τ} {R : σ → τ → Prop}
    {P : ι → σ → Prop} {Q : ι → τ → Prop}
    (hstep : ∀ op s t, R s t → R (perform op s).2 (perform' op t).2)
    (hcond : ∀ op s t, R s t → P op s → Q op t) (ops : List ι) {s : σ} {t : τ} (h : R s t)
    (halong : Along perform P ops s) : Along perform' Q ops t := by
  induction ops generalizing s t with
  | nil => trivial
  | cons op ops ih =>
      obtain ⟨hop, hops⟩ := halong
      exact ⟨hcond op s t h hop, ih (hstep op s t h) hops⟩

/-! ### Events -/

section events

variable {β : Type x} {perform : ι → σ → ρ × σ}

/-- What the steps of a run amount to: what `event?` reads off each operation and its reply. -/
def events (perform : ι → σ → ρ × σ) (event? : ι × ρ → Option β) (ops : List ι) (s : σ) :
    List β :=
  (ops.zip (run perform ops s).1).filterMap event?

theorem events_cons (event? : ι × ρ → Option β) (op : ι) (ops : List ι) (s : σ) :
    events perform event? (op :: ops) s =
      (event? (op, (perform op s).1)).toList ++ events perform event? ops (perform op s).2 := by
  unfold events
  rw [run_cons_replies, List.zip_cons_cons, List.filterMap_cons]
  cases event? (op, (perform op s).1) <;> rfl

/-- Where each step has at most one event, and that takes the next number after those that the
state has used up, the events of a run are numbered in order. -/
theorem map_events_eq_range' {event? : ι × ρ → Option β} {number : β → Nat} {used : σ → Nat}
    (hstep : ∀ op s,
      (event? (op, (perform op s).1) = none ∧ used (perform op s).2 = used s) ∨
        ∃ b, event? (op, (perform op s).1) = some b ∧ number b = used s ∧
          used (perform op s).2 = used s + 1) (ops : List ι) (s : σ) :
    (events perform event? ops s).map number =
        List.range' (used s) (events perform event? ops s).length ∧
      used (run perform ops s).2 = used s + (events perform event? ops s).length := by
  induction ops generalizing s with
  | nil => exact ⟨rfl, rfl⟩
  | cons op ops ih =>
      obtain ⟨hnumbers, hused⟩ := ih (perform op s).2
      rw [events_cons, run_cons_state]
      rcases hstep op s with ⟨hnone, hsame⟩ | ⟨b, hsome, hnumber, hnext⟩
      · rw [hsame] at hnumbers hused
        rw [hnone]
        exact ⟨hnumbers, hused⟩
      · rw [hnext] at hnumbers hused
        rw [hsome, Option.toList_some, List.singleton_append, List.length_cons, List.map_cons,
          hnumbers, hnumber, List.range'_succ]
        refine ⟨rfl, ?_⟩
        omega

end events

/-! ### Histories -/

section history

variable {β : Type x} {perform : ι → σ → ρ × σ}

/-- What `read` finds in each operation and the state that it is performed in, over a run. -/
def history (perform : ι → σ → ρ × σ) (read : ι → σ → List β) : List ι → σ → List β
  | [], _ => []
  | op :: ops, s => read op s ++ history perform read ops (perform op s).2

/-- The history of a run goes on where the first part has stopped. -/
theorem history_append (read : ι → σ → List β) (ops later : List ι) (s : σ) :
    history perform read (ops ++ later) s =
      history perform read ops s ++ history perform read later (run perform ops s).2 := by
  induction ops generalizing s with
  | nil => rfl
  | cons op ops ih =>
      rw [List.cons_append, history, history, ih, List.append_assoc]
      rfl

end history

/-! ### Peaks -/

section peak

variable {perform : ι → σ → ρ × σ} {size : σ → Nat}

/-- The largest size of the states that a run goes through, the first and the last one included. -/
def peak (perform : ι → σ → ρ × σ) (size : σ → Nat) : List ι → σ → Nat
  | [], s => size s
  | op :: ops, s => max (size s) (peak perform size ops (perform op s).2)

theorem size_le_peak (ops : List ι) (s : σ) : size s ≤ peak perform size ops s := by
  cases ops with
  | nil => exact Nat.le_refl _
  | cons op ops => exact Nat.le_max_left ..

/-- What every step preserves within a bound that covers the size it comes to, a run preserves
within a bound that covers its peak. -/
theorem run_within_peak {P : Nat → σ → Prop} (hmono : ∀ {m n s}, m ≤ n → P m s → P n s)
    (hstep : ∀ op s n, P n s → P (max n (size (perform op s).2)) (perform op s).2)
    (ops : List ι) {n : Nat} {s : σ} (h : P n s) :
    P (max n (peak perform size ops s)) (run perform ops s).2 := by
  induction ops generalizing n s with
  | nil => exact hmono (Nat.le_max_left ..) h
  | cons op ops ih =>
      have hnext : size (perform op s).2 ≤ peak perform size ops (perform op s).2 :=
        size_le_peak ops (perform op s).2
      refine hmono ?_ (ih (hstep op s n h))
      simp only [peak]
      omega

/-- What holds within a bound holds along a run whose peak the bound covers. -/
theorem along_within_peak {P : Nat → σ → Prop} {Q : ι → σ → Prop} {bound : Nat}
    (hmono : ∀ {m n s}, m ≤ n → P m s → P n s)
    (hstep : ∀ op s n, P n s → P (max n (size (perform op s).2)) (perform op s).2)
    (hbound : ∀ op s, P bound s → Q op s) (ops : List ι) {n : Nat} {s : σ} (h : P n s)
    (hn : n ≤ bound) (hpeak : peak perform size ops s ≤ bound) : Along perform Q ops s := by
  induction ops generalizing n s with
  | nil => trivial
  | cons op ops ih =>
      have hnext : size (perform op s).2 ≤ peak perform size ops (perform op s).2 :=
        size_le_peak ops (perform op s).2
      simp only [peak] at hpeak
      refine ⟨hbound op s (hmono hn h), ih (hstep op s n h) ?_ ?_⟩
      · omega
      · omega

end peak

/-! ### Runs that break off -/

/-- Performs the operations in order, up to the first one that fails. -/
def run? (perform : ι → σ → Option (ρ × σ)) : List ι → σ → Option (List ρ × σ)
  | [], s => some ([], s)
  | op :: ops, s => do
    let (reply, s) ← perform op s
    let (replies, s) ← run? perform ops s
    return (reply :: replies, s)

/-- Where every step does what another machine does, no run breaks off. -/
theorem run?_eq_some {perform? : ι → σ → Option (ρ × σ)} {perform : ι → σ → ρ × σ} {ops : List ι}
    {s : σ} (h : Along perform (fun op s => perform? op s = some (perform op s)) ops s) :
    run? perform? ops s = some (run perform ops s) := by
  induction ops generalizing s with
  | nil => rfl
  | cons op ops ih =>
      obtain ⟨hstep, hrest⟩ := h
      simp only [run?, hstep, bind, Option.bind, ih hrest]
      rfl

end ExpressModel

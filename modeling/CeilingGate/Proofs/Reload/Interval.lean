import CeilingGate.Proofs.Reload.Accounts
import Mathlib.Algebra.Order.Field.Rat
import Mathlib.Data.NNRat.Defs
import Mathlib.Tactic.Linarith
import Mathlib.Tactic.NormNum
import Mathlib.Tactic.Ring

/-! The reload loop with a clock. Each wait lasts until a notice is there, at most for the interval,
and the next one starts the interval anew. Main statement: the loop never waits for longer than the
interval without a reload exactly if each error of the watch that ends a wait is followed by another
notice before the rest of the interval is over. -/
namespace CeilingGate.Reload

open CeilingGate.Policy

variable {T delay : ℚ} {r : Reloader} {c : Change} {k n : ℕ}

/-- What the watch puts into the queue at some time: the news of a change, or an error of its own.
-/
structure Notice where
  time : ℚ
  error? : Option String

def Notice.trigger (n : Notice) : Trigger :=
  match n.error? with
  | some message => .watchError message
  | none => .fileChange

/-- What a reload gives, and for how long it goes on. -/
structure Work where
  loaded : Except Fault Generation
  takes : ℚ≥0

/-- The loop at the beginning of a wait. It has waited for `spent` since its last reload, or since
it was started; `coming` are the notices that it has not handled, in the order of the queue. -/
@[ext]
structure Wait where
  reloader : Reloader
  now : ℚ
  spent : ℚ
  coming : List Notice

namespace Wait

variable {s : Wait} {w : Work} {works : ℕ → Work}

def start (r : Reloader) (now : ℚ) (notices : List Notice) : Wait := ⟨r, now, 0, notices⟩

/-- A wait ends with the first notice, or when the interval is over. -/
def ending (T : ℚ) (s : Wait) : ℚ :=
  match s.coming with
  | [] => s.now + T
  | n :: _ => min (max s.now n.time) (s.now + T)

/-- The notices that are in the queue when the wait ends. -/
def queue (T : ℚ) (s : Wait) : List Notice := s.coming.takeWhile fun n => n.time ≤ s.ending T

def trigger (T : ℚ) (s : Wait) : Trigger :=
  (next false .timer .shutdown ((s.queue T).map Notice.trigger)).1

/-- One turn of the loop: a wait, and what its end sets off. -/
def turn (T : ℚ) (s : Wait) (w : Work) : Wait :=
  let change := s.reloader.handle (s.trigger T) (w.loaded.mapError .fault)
  let hasReloaded := change.counts.reloads != 0
  { reloader := change.reloader
    now := s.ending T + if hasReloaded then (w.takes : ℚ) else 0
    spent := if hasReloaded then 0 else s.spent + (s.ending T - s.now)
    coming := if (s.queue T).isEmpty then s.coming else s.coming.tail }

/-- The loop after so many turns. -/
def after (T : ℚ) (works : ℕ → Work) (s : Wait) : ℕ → Wait
  | 0 => s
  | k + 1 => (after T works s k).turn T (works k)

/-- In the course of the wait there is a moment at which the loop has waited for longer than the
interval since its last reload. -/
def IsOverdue (T : ℚ) (s : Wait) : Prop :=
  ∃ t, s.now ≤ t ∧ t ≤ s.ending T ∧ T < s.spent + (t - s.now)

/-- No moment comes at which the loop has waited for longer than the interval since its last reload.
-/
def Honours (T : ℚ) (works : ℕ → Work) (s : Wait) : Prop := ∀ k, ¬ IsOverdue T (s.after T works k)

/-- Either the first notice is there before the interval is over, or the timer ends the wait. -/
theorem wait_cases (T : ℚ) (s : Wait) (hT : 0 ≤ T) :
    (∃ n rest, s.coming = n :: rest ∧ n.time ≤ s.now + T ∧ s.ending T = max s.now n.time ∧
      s.trigger T = n.trigger ∧ ∀ w, (s.turn T w).coming = rest) ∨
    ((∀ n ∈ s.coming.head?, s.now + T < n.time) ∧ s.ending T = s.now + T ∧
      s.trigger T = .timer ∧ ∀ w, (s.turn T w).coming = s.coming) := by
  cases hc : s.coming with
  | nil =>
    right
    simp [ending, trigger, queue, turn, hc, next]
  | cons n rest =>
    by_cases hn : n.time ≤ s.now + T
    · left
      have he : s.ending T = max s.now n.time := by
        simp only [ending, hc]
        exact min_eq_left (max_le (by linarith) hn)
      have hq : s.queue T = n :: rest.takeWhile fun n => n.time ≤ s.ending T := by
        simp [queue, hc, he]
      exact ⟨n, rest, rfl, hn, he, by simp [trigger, hq, next], fun w => by simp [turn, hq, hc]⟩
    · right
      have hlate : s.now + T < n.time := not_le.mp hn
      have he : s.ending T = s.now + T := by
        simp only [ending, hc]
        exact min_eq_right (le_trans hlate.le (le_max_right _ _))
      have hq : s.queue T = [] := by
        simp [queue, hc, he, hlate]
      exact ⟨by simpa using hlate, he, by simp [trigger, hq, next], fun w => by simp [turn, hq, hc]⟩

theorem now_le_ending (hT : 0 ≤ T) : s.now ≤ s.ending T := by
  obtain ⟨n, rest, _, _, he, _⟩ | ⟨_, he, _⟩ := wait_cases T s hT
  · rw [he]
    exact le_max_left _ _
  · linarith

theorem ending_le (hT : 0 ≤ T) : s.ending T ≤ s.now + T := by
  obtain ⟨n, rest, _, hn, he, _⟩ | ⟨_, he, _⟩ := wait_cases T s hT
  · rw [he]
    exact max_le (by linarith) hn
  · exact he.le

/-- It comes to the end of the wait. -/
theorem isOverdue_iff (hT : 0 ≤ T) : IsOverdue T s ↔ T < s.spent + (s.ending T - s.now) := by
  constructor
  · rintro ⟨t, _, ht, hlt⟩
    linarith
  · intro hlt
    exact ⟨s.ending T, now_le_ending hT, le_rfl, hlt⟩

theorem trigger_ne_shutdown (hT : 0 ≤ T) : s.trigger T ≠ .shutdown := by
  obtain ⟨n, _, _, _, _, ht, _⟩ | ⟨_, _, ht, _⟩ := wait_cases T s hT
  · rw [ht, Notice.trigger]
    split <;> simp
  · simp [ht]

theorem turn_reloader (s : Wait) (w : Work) :
    (s.turn T w).reloader = (s.reloader.handle (s.trigger T)
      (Arrival.answered ⟨s.trigger T, w.loaded⟩).loaded).reloader := rfl

theorem turn_running (hT : 0 ≤ T) (h : s.reloader.loop = .running) :
    (s.turn T w).reloader.loop = .running := by
  rw [turn_reloader, handle_running h]
  exact step_loop (a := ⟨s.trigger T, w.loaded⟩) h (trigger_ne_shutdown hT)

/-- A reload gives the loop its interval back. -/
theorem turn_spent_of_reload (h : s.reloader.loop = .running)
    (ht : (s.trigger T).isReload = true) : (s.turn T w).spent = 0 := by
  have hstep := step_reload (r := s.reloader) (a := ⟨s.trigger T, w.loaded⟩) ht
  have hcounts := (reload_advance s.reloader w.loaded).counts
  simp only [Arrival.answered] at hstep
  simp [turn, handle_running h, hstep, hcounts]

/-- An error of the watch is handled without a reload, and nothing is taken off what has been spent.
-/
theorem turn_watchError (h : s.reloader.loop = .running) {message : String}
    (ht : s.trigger T = .watchError message) :
    (s.turn T w).reloader = s.reloader ∧ (s.turn T w).now = s.ending T ∧
      (s.turn T w).spent = s.spent + (s.ending T - s.now) := by
  simp [turn, handle_running h, ht, Reloader.step, Metrics.zero]

/-- Each turn reloads or handles an error. -/
theorem trigger_cases (hT : 0 ≤ T) (s : Wait) :
    (s.trigger T).isReload = true ∨ ∃ message, s.trigger T = .watchError message := by
  have hs := trigger_ne_shutdown (s := s) hT
  cases ht : s.trigger T with
  | timer | fileChange => exact Or.inl rfl
  | watchError message => exact Or.inr ⟨message, rfl⟩
  | shutdown => exact (hs ht).elim

theorem after_running (hT : 0 ≤ T) (h : s.reloader.loop = .running) (k : ℕ) :
    (s.after T works k).reloader.loop = .running := by
  induction k with
  | zero => exact h
  | succ k ih => exact turn_running hT ih

/-- The clock adds nothing to what the loop does: it handles the triggers that end its waits. -/
theorem after_reloader (s : Wait) (k : ℕ) :
    (s.after T works k).reloader =
      (s.reloader.run ((List.range k).map fun i =>
        (Arrival.answered ⟨(s.after T works i).trigger T, (works i).loaded⟩))).reloader := by
  induction k with
  | zero => rfl
  | succ k ih =>
    rw [List.range_succ, List.map_append, Reloader.run_append, List.map_singleton,
      Reloader.run_singleton]
    simp only [Change.before, ← ih]
    exact turn_reloader _ _

theorem after_spent_nonneg (hT : 0 ≤ T) (hrun : s.reloader.loop = .running) (hs : s.spent = 0)
    (k : ℕ) : 0 ≤ (s.after T works k).spent := by
  induction k with
  | zero => exact hs.ge
  | succ k ih =>
    obtain ht | ⟨message, ht⟩ := trigger_cases hT (s.after T works k)
    · exact (turn_spent_of_reload (after_running hT hrun k) ht).ge
    · rw [after, (turn_watchError (after_running hT hrun k) ht).2.2]
      have := now_le_ending (s := s.after T works k) hT
      linarith

/-- Another notice is there before the rest of the interval is over. -/
def IsFollowed (T : ℚ) (s : Wait) : Prop := ∃ n ∈ s.coming.head?, n.time ≤ s.now + (T - s.spent)

/-- A wait that begins late ends in time exactly if a notice ends it. -/
theorem not_isOverdue_iff (hT : 0 ≤ T) (hpos : 0 < s.spent) (hle : s.spent ≤ T) :
    ¬ IsOverdue T s ↔ IsFollowed T s := by
  rw [isOverdue_iff hT, not_lt]
  constructor
  · intro hin
    obtain ⟨n, rest, hc, _, he, _⟩ | ⟨_, he, _⟩ := wait_cases T s hT
    · refine ⟨n, by simp [hc], ?_⟩
      have := le_max_right s.now n.time
      linarith
    · linarith
  · rintro ⟨n, hn, htime⟩
    obtain ⟨n', rest, hc, _, he, _⟩ | ⟨hlate, _⟩ := wait_cases T s hT
    · have hsame : n' = n := by simpa [hc] using hn
      subst hsame
      have : max s.now n'.time ≤ s.now + (T - s.spent) := max_le (by linarith) htime
      linarith
    · have := hlate n hn
      linarith

/-- A wait that begins with nothing spent is never too long. -/
theorem not_isOverdue_of_fresh (hT : 0 ≤ T) (h : s.spent = 0) : ¬ IsOverdue T s := by
  rw [isOverdue_iff hT, not_lt, h]
  have := ending_le (s := s) hT
  linarith

/-- The interval is honoured exactly if each error of the watch that leaves the loop with time spent
is followed by another notice before the rest of the interval is over. -/
theorem honours_iff (hT : 0 ≤ T) (hrun : s.reloader.loop = .running) (hs : s.spent = 0) :
    Honours T works s ↔ ∀ k message, (s.after T works k).trigger T = .watchError message →
      0 < (s.after T works (k + 1)).spent → IsFollowed T (s.after T works (k + 1)) := by
  -- what a turn leaves behind that was not overdue
  have hspent : ∀ k message, ¬ IsOverdue T (s.after T works k) →
      (s.after T works k).trigger T = .watchError message →
      (s.after T works (k + 1)).spent ≤ T := by
    intro k message hk ht
    rw [isOverdue_iff hT, not_lt] at hk
    rw [after, (turn_watchError (after_running hT hrun k) ht).2.2]
    exact hk
  constructor
  · intro hall k message ht hpos
    exact (not_isOverdue_iff hT hpos (hspent k message (hall k) ht)).mp (hall (k + 1))
  · intro hfollowed k
    induction k with
    | zero => exact not_isOverdue_of_fresh hT hs
    | succ k ih =>
      obtain ht | ⟨message, ht⟩ := trigger_cases hT (s.after T works k)
      · exact not_isOverdue_of_fresh hT (turn_spent_of_reload (after_running hT hrun k) ht)
      · by_cases hpos : 0 < (s.after T works (k + 1)).spent
        · exact (not_isOverdue_iff hT hpos (hspent k message ih ht)).mpr
            (hfollowed k message ht hpos)
        · have hnonneg : 0 ≤ (s.after T works (k + 1)).spent :=
            after_spent_nonneg hT hrun hs (k + 1)
          exact not_isOverdue_of_fresh hT (le_antisymm (not_lt.mp hpos) hnonneg)

theorem after_coming_subset (hT : 0 ≤ T) (s : Wait) (k : ℕ) :
    ∀ n ∈ (s.after T works k).coming, n ∈ s.coming := by
  induction k with
  | zero => exact fun _ hn => hn
  | succ k ih =>
    intro n hn
    rw [after] at hn
    obtain ⟨m, rest, hc, _, _, _, hnext⟩ | ⟨_, _, _, hnext⟩ := wait_cases T (s.after T works k) hT
    · rw [hnext] at hn
      exact ih n (by simp [hc, hn])
    · rw [hnext] at hn
      exact ih n hn

/-- Only a notice of an error makes a turn of an error. -/
theorem error_of_trigger (hT : 0 ≤ T) {message : String} (ht : s.trigger T = .watchError message) :
    ∃ n ∈ s.coming, n.error? = some message := by
  obtain ⟨n, rest, hc, _, _, hn, _⟩ | ⟨_, _, htimer, _⟩ := wait_cases T s hT
  · refine ⟨n, by simp [hc], ?_⟩
    rw [ht, Notice.trigger] at hn
    split at hn
    · next he => rw [he, (Trigger.watchError.inj hn)]
    · cases hn
  · rw [ht] at htimer
    cases htimer

/-- A loop whose watch makes no errors honours its interval. -/
theorem honours_of_no_error (hT : 0 ≤ T) (hrun : s.reloader.loop = .running) (hs : s.spent = 0)
    (hn : ∀ n ∈ s.coming, n.error? = none) : Honours T works s := by
  rw [honours_iff hT hrun hs]
  intro k message ht _
  obtain ⟨n, hmem, he⟩ := error_of_trigger hT ht
  rw [hn n (after_coming_subset hT s k n hmem)] at he
  cases he

end Wait

/-- The seconds that an interval lasts, unless it is endless or undefined. -/
def seconds? : Binary64 → Option ℚ
  | .finite negative m e =>
    let size : ℚ := if e ≥ 0 then (m * 2 ^ e.toNat : ℕ) else (m : ℚ) / (2 ^ (-e).toNat : ℕ)
    some (if negative then -size else size)
  | _ => none

theorem seconds?_pos {x : Binary64} (hx : x.isAtMostZero = false) (hs : seconds? x = some T) :
    0 < T := by
  cases x with
  | finite negative m e =>
    simp only [Binary64.isAtMostZero, Bool.or_eq_false_iff, beq_eq_false_iff_ne] at hx
    obtain ⟨rfl, hm⟩ := hx
    have hpos : 0 < m := Nat.pos_of_ne_zero hm
    simp only [seconds?, Option.some.injEq] at hs
    subst hs
    simp only [Bool.false_eq_true, if_false]
    split
    · exact_mod_cast Nat.mul_pos hpos (Nat.pow_pos (by decide))
    · exact div_pos (by exact_mod_cast hpos) (by exact_mod_cast Nat.pow_pos (by decide))
  | infinite negative => cases hs
  | nan => cases hs

/-- A fresh reloader never waits for longer than its interval without a reload exactly if each error
of the watch that leaves it with time spent is followed by another notice before the rest of the
interval is over; so it never does if the watch makes no errors. With the clock it is the loop that
it is without. -/
theorem interval_honoured_iff {path : Path} {interval : Binary64} {watches : Bool}
    {store : Store} (hr : Reloader.create? path interval watches store = some r)
    (hc : r.start? interval = some c) (hT : seconds? interval = some T) (works : ℕ → Work) (now : ℚ)
    (notices : List Notice) :
    let s := Wait.start c.reloader now notices
    (s.Honours T works ↔ ∀ k message, (s.after T works k).trigger T = .watchError message →
      0 < (s.after T works (k + 1)).spent → (s.after T works (k + 1)).IsFollowed T) ∧
    ((∀ n ∈ notices, n.error? = none) → s.Honours T works) ∧
    ∀ k, (s.after T works k).reloader =
      (c.reloader.run ((List.range k).map fun i =>
        (Arrival.answered ⟨(s.after T works i).trigger T, (works i).loaded⟩))).reloader := by
  have hnonneg : 0 ≤ T := by
    apply (seconds?_pos _ hT).le
    unfold Reloader.create? at hr
    split at hr
    · cases hr
    · next hpos => simpa using hpos
  have hrun : c.reloader.loop = .running := by rw [start?_eq hc]
  intro s
  exact ⟨Wait.honours_iff hnonneg hrun rfl,
    fun hn => Wait.honours_of_no_error (s := s) hnonneg hrun rfl hn, Wait.after_reloader s⟩

/-- A change of the file, and no errors. -/
theorem interval_honoured_fileChange :
    seconds? freshReloader.interval = some 300 ∧
      (Wait.start freshStart.reloader 0 [⟨200, none⟩, ⟨250, none⟩]).Honours 300
        fun _ => ⟨.ok .empty, 1⟩ := by
  have hr : Reloader.create? freshReloader.path freshReloader.interval true .empty =
      some freshReloader := rfl
  have hc : freshReloader.start? freshReloader.interval = some freshStart := rfl
  have hT : seconds? freshReloader.interval = some 300 := by norm_num [seconds?, freshReloader]
  exact ⟨hT, (interval_honoured_iff hr hc hT _ 0 _).2.1 (by simp)⟩

/-- A watch that fails again and again, each time after the same delay. -/
def retries (now delay : ℚ) : ℕ → List Notice
  | 0 => []
  | n + 1 => ⟨now + delay, some "watch limit reached"⟩ :: retries (now + delay) delay n

theorem turn_retries {s : Wait} {w : Work} (hd : 0 ≤ delay) (hle : delay ≤ T)
    (hrun : s.reloader.loop = .running) (hs : s.coming = retries s.now delay (n + 1)) :
    s.turn T w =
      ⟨s.reloader, s.now + delay, s.spent + delay, retries (s.now + delay) delay n⟩ := by
  obtain ⟨m, rest, hc, _, he, ht, hcoming⟩ | ⟨hlate, _⟩ := Wait.wait_cases T s (hd.trans hle)
  · rw [hs, retries] at hc
    obtain ⟨rfl, rfl⟩ := List.cons.inj hc
    have hend : s.ending T = s.now + delay := he.trans (max_eq_right (by simpa using hd))
    obtain ⟨hreloader, hnow, hspent⟩ := Wait.turn_watchError (w := w) hrun ht
    have hwait : s.spent + (s.now + delay - s.now) = s.spent + delay := by ring
    rw [hend] at hnow hspent
    rw [hwait] at hspent
    exact Wait.ext hreloader hnow hspent (hcoming w)
  · have hfirst : s.now + T < s.now + delay :=
      hlate ⟨s.now + delay, some "watch limit reached"⟩ (by simp [hs, retries])
    linarith

/-- Errors that follow each other soon enough keep the loop from reloading for as long as they come.
-/
theorem after_retries {s : Wait} {works : ℕ → Work} (hd : 0 ≤ delay) (hle : delay ≤ T)
    (hrun : s.reloader.loop = .running) (hs : s.coming = retries s.now delay n) (hk : k ≤ n) :
    s.after T works k = ⟨s.reloader, s.now + k * delay, s.spent + k * delay,
      retries (s.now + k * delay) delay (n - k)⟩ := by
  induction k with
  | zero => simp [Wait.after, ← hs]
  | succ k ih =>
    have hleft : n - k = n - (k + 1) + 1 := by omega
    have hstep : ∀ x : ℚ, x + ((k + 1 : ℕ) : ℚ) * delay = x + k * delay + delay := by
      intro x
      push_cast
      ring
    rw [Wait.after, ih (by omega), hstep, hstep, hleft]
    exact turn_retries hd hle hrun rfl

/-- A watch that fails each second keeps a loop that is to reload every five minutes from doing so
for ten minutes. -/
theorem not_honoured_retries :
    let s := Wait.start freshStart.reloader 0 (retries 0 1 600)
    let works : ℕ → Work := fun _ => ⟨.ok .empty, 1⟩
    seconds? freshStart.reloader.interval = some 300 ∧ ¬ s.Honours 300 works ∧
      (s.after 300 works 600).spent = 600 ∧ (s.after 300 works 600).reloader.reloads = 0 := by
  intro s works
  have hafter : ∀ {k : ℕ}, k ≤ 600 → s.after 300 works k =
      ⟨s.reloader, s.now + k * 1, s.spent + k * 1, retries (s.now + k * 1) 1 (600 - k)⟩ :=
    fun hk => after_retries (by norm_num) (by norm_num) rfl rfl hk
  have hT : seconds? freshStart.reloader.interval = some 300 := by
    norm_num [seconds?, freshStart, freshReloader]
  have hspent : ∀ {k : ℕ}, k ≤ 600 → (s.after 300 works k).spent = k := by
    intro k hk
    rw [hafter hk]
    simp [s, Wait.start]
  refine ⟨hT, ?_, ?_, ?_⟩
  · intro hall
    have hin := hall 500
    rw [Wait.isOverdue_iff (by norm_num), not_lt, hspent (by norm_num)] at hin
    have := Wait.now_le_ending (s := s.after 300 works 500) (T := 300) (by norm_num)
    push_cast at hin
    linarith
  · rw [hspent le_rfl]
    norm_num
  · rw [hafter le_rfl]
    rfl

end CeilingGate.Reload

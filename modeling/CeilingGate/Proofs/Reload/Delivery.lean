import CeilingGate.Proofs.Reload.Session
import Mathlib.Data.List.Nodup

/-! No change of the policy file is lost or handled twice, however the steps of a run are ordered. A get
that is given up takes nothing out of the queue, so whatever has been put is handled, held or queued.
Main statement: each change is handled by one reload that begins after the change was put, in the order
of the changes and before long, unless the loop ends first; and reloads do not overlap. -/
namespace CeilingGate.Reload

open CeilingGate.Policy

variable {r : Reloader} {s t : Session} {log : List Happening} {e : Happening} {p q : Phase} {i : Item}
  {n : Nat}

/-! ## What a step does to a run -/

/-- The item that has been handled when something has happened: a change when its reload begins, an error
of the watch at once. -/
def Happening.settled? : Happening → Option Item
  | .began c => c.item?
  | .selected (.item ⟨n, .watchError message⟩) => some ⟨n, .watchError message⟩
  | _ => none

def settled (log : List Happening) : List Item := log.filterMap Happening.settled?

def Happening.isSelected : Happening → Bool
  | .selected _ => true
  | _ => false

/-- How many waits have come to their end. -/
def selections (log : List Happening) : Nat := log.countP Happening.isSelected

def Happening.isReload : Happening → Bool
  | .began _ | .loaded _ _ | .published _ _ => true
  | .put _ | .selected _ => false

/-- The items that are still to be handled, in order. -/
def Session.awaiting (s : Session) : List Item := s.phase.held?.toList ++ s.queue

namespace Phase

/-- What has happened in the reload that goes on. -/
def unfinished : Phase → List Happening
  | .loading c => [.began c]
  | .publishing c g => [.began c, .loaded c (.ok g)]
  | .waiting _ _ | .called _ | .ended _ => []

/-- How many waits can end before the next item is handled. The timer can end the wait that is on, if its get
came before the item; then it takes one wait to select the item. -/
def slack : Phase → Nat
  | .waiting .waiting _ => 2
  | .called (.change _) => 0
  | _ => 1

/-- How the loop goes on from phase to phase. The timer ends only those waits whose get has found the queue
empty. -/
inductive Moves : Phase → Happening → Phase → Prop
  | shutdown (get : Get) (seesStop : Bool) :
      Moves (.waiting get seesStop) (.selected .shutdown) (.ended get.item?)
  | timer (seesStop : Bool) : Moves (.waiting .waiting seesStop) (.selected .timer) (.called .timer)
  | change (n : Nat) (seesStop : Bool) :
      Moves (.waiting (.done ⟨n, .fileChange⟩) seesStop) (.selected (.item ⟨n, .fileChange⟩))
        (.called (.change n))
  | watchError (n : Nat) (message : String) (seesStop : Bool) :
      Moves (.waiting (.done ⟨n, .watchError message⟩) seesStop)
        (.selected (.item ⟨n, .watchError message⟩)) newWait
  | begin (c : Cause) : Moves (.called c) (.began c) (.loading c)
  | fail (c : Cause) (f : Fault) : Moves (.loading c) (.loaded c (.error f)) newWait
  | parse (c : Cause) (g : Generation) : Moves (.loading c) (.loaded c (.ok g)) (.publishing c g)
  | publish (c : Cause) (g : Generation) : Moves (.publishing c g) (.published c g) newWait

end Phase

namespace Session

/-- Nothing happens to the items or to the reload that goes on. -/
structure Quiet (s t : Session) : Prop where
  log : t.log = s.log
  awaiting : t.awaiting = s.awaiting
  unfinished : t.phase.unfinished = s.phase.unfinished
  slack : s.awaiting ≠ [] → t.phase.slack ≤ s.phase.slack

theorem step_cases (h : Step s t) :
    (∃ news, t = s.put news) ∨ Quiet s t ∨
      ∃ e p change, Phase.Moves s.phase e p ∧ t = s.advance p change e := by
  cases h with
  | put news => exact Or.inl ⟨news, rfl⟩
  | stop => exact Or.inr (Or.inl ⟨rfl, rfl, rfl, fun _ => Nat.le_refl _⟩)
  | find h hq =>
    -- The slack that comes back here is no item's: the queue is empty.
    refine Or.inr (Or.inl ⟨rfl, ?_, ?_, ?_⟩)
    · simp [awaiting, h, Phase.held?, Get.item?]
    · rw [h]
      rfl
    · simp [awaiting, h, hq, Phase.held?, Get.item?]
  | @take get seesStop i rest h hg hq =>
    refine Or.inr (Or.inl ⟨rfl, ?_, ?_, fun _ => ?_⟩)
    · simp [awaiting, h, hg, hq, Phase.held?]
      rfl
    · rw [h]
      rfl
    · rw [h]
      cases get <;> simp [Phase.slack]
  | @seeStop get h hstop =>
    refine Or.inr (Or.inl ⟨rfl, ?_, ?_, fun _ => ?_⟩)
    · simp [awaiting, h, Phase.held?]
    · rw [h]
      rfl
    · rw [h]
      cases get <;> simp [Phase.slack]
  | @select get seesStop h hg =>
    right
    right
    rw [h]
    obtain ⟨_, he⟩ | ⟨hget, he⟩ | ⟨n, rfl, he⟩ | ⟨n, message, rfl, he⟩ := select_cases s get seesStop
    · exact ⟨_, _, _, .shutdown get seesStop, he⟩
    · have hwaiting : get = .waiting := by cases get <;> simp_all [Get.item?]
      subst hwaiting
      exact ⟨_, _, _, .timer seesStop, he⟩
    · exact ⟨_, _, _, .change n seesStop, he⟩
    · exact ⟨_, _, _, .watchError n message seesStop, he⟩
  | @begin c h => exact Or.inr (Or.inr ⟨_, _, _, h ▸ .begin c, rfl⟩)
  | @fail c h f => exact Or.inr (Or.inr ⟨_, _, _, h ▸ .fail c f, rfl⟩)
  | @parse c h g => exact Or.inr (Or.inr ⟨_, _, _, h ▸ .parse c g, rfl⟩)
  | @publish c g h => exact Or.inr (Or.inr ⟨_, _, _, h ▸ .publish c g, rfl⟩)

end Session

/-! ## Accounts of the queue -/

theorem puts_snoc (log : List Happening) (e : Happening) :
    puts (log ++ [e]) = puts log ++ e.put?.toList := by
  cases h : e.put? <;> simp [puts, h]

theorem settled_snoc (log : List Happening) (e : Happening) :
    settled (log ++ [e]) = settled log ++ e.settled?.toList := by
  cases h : e.settled? <;> simp [settled, h]

theorem selections_snoc (log : List Happening) (e : Happening) :
    selections (log ++ [e]) = selections log + e.isSelected.toNat := by
  cases h : e.isSelected <;> simp [selections, h]

namespace Phase

theorem Moves.put? (h : Moves p e q) : e.put? = none := by
  cases h <;> rfl

/-- What the loop holds is handled or held on to. -/
theorem Moves.held (h : Moves p e q) : p.held?.toList = e.settled?.toList ++ q.held?.toList := by
  cases h with
  | begin c => cases c <;> rfl
  | _ => rfl

/-- A wait that ends without the stop brings the next item nearer. -/
theorem Moves.slack (h : Moves p e q) (he : e ≠ .selected .shutdown) :
    q.slack + e.isSelected.toNat ≤ p.slack + e.settled?.toList.length := by
  cases h with
  | shutdown => exact (he rfl).elim
  | begin c => cases c <;> exact Nat.le_refl _
  | _ => exact Nat.le_refl _

end Phase

namespace Session

/-- What has been put is handled or awaits it, in order. -/
def Accounted (s : Session) : Prop := puts s.log = settled s.log ++ s.awaiting

theorem accounted_step (h : Step s t) (hs : Accounted s) : Accounted t := by
  unfold Accounted at hs ⊢
  obtain ⟨news, rfl⟩ | hq | ⟨e, p, change, hm, rfl⟩ := step_cases h
  · simp only [put, puts_snoc, settled_snoc, Happening.put?, Happening.settled?, awaiting, hs]
    simp
  · rw [hq.log, hq.awaiting, hs]
  · simp only [advance, puts_snoc, settled_snoc, hm.put?, awaiting, hs, hm.held]
    simp

/-- Items are numbered in the order in which they are put. -/
def Numbered (log : List Happening) : Prop :=
  (puts log).map Item.number = List.range (puts log).length

theorem numbered_step (h : Step s t) (hs : Numbered s.log) : Numbered t.log := by
  unfold Numbered at hs ⊢
  obtain ⟨news, rfl⟩ | hq | ⟨e, p, change, hm, rfl⟩ := step_cases h
  · simp [put, puts_snoc, Happening.put?, hs, List.range_succ]
  · rw [hq.log, hs]
  · simp [advance, puts_snoc, hm.put?, hs]

theorem accounted_steps (h : Steps s t) (hs : Accounted s) : Accounted t := keep accounted_step h hs

theorem accounted_start (r : Reloader) : Accounted (start r) := rfl

theorem numbered_steps (h : Steps (start r) s) : Numbered s.log :=
  keep (P := fun s => Numbered s.log) numbered_step h rfl

/-- At no time has anything been handled that had not been put before. -/
theorem settled_prefix_puts (h : Steps (start r) s) (hl : log <+: s.log) : settled log <+: puts log := by
  induction h with
  | refl =>
    obtain rfl := List.prefix_nil.mp hl
    exact List.prefix_rfl
  | @tail s t hs hstep ih =>
    obtain he | ⟨e, he⟩ := log_step hstep
    · exact ih (he ▸ hl)
    · rw [he] at hl
      obtain rfl | hl := List.prefix_concat_iff.mp hl
      · rw [← he, accounted_steps (hs.tail hstep) (accounted_start r)]
        exact List.prefix_append _ _
      · exact ih hl

/-! ## Progress -/

theorem settled_length_step (h : Step s t) : (settled s.log).length ≤ (settled t.log).length := by
  obtain he | ⟨e, he⟩ := log_step h
  · exact Nat.le_of_eq (by rw [he])
  · rw [he, settled_snoc, List.length_append]
    exact Nat.le_add_right _ _

/-- As long as an item is owed, the waits that end are paid for by what is handled. -/
theorem owed_step (hs : s.awaiting ≠ []) (h : Step s t) (hlog : .selected .shutdown ∉ t.log) :
    t.phase.slack + selections t.log + (settled s.log).length ≤
      s.phase.slack + selections s.log + (settled t.log).length := by
  obtain ⟨news, rfl⟩ | hq | ⟨e, p, change, hm, rfl⟩ := step_cases h
  · simp [put, selections_snoc, settled_snoc, Happening.isSelected, Happening.settled?]
  · have := hq.slack hs
    rw [hq.log]
    omega
  · have he : e ≠ .selected .shutdown := by
      rintro rfl
      simp [advance] at hlog
    have := hm.slack he
    simp only [advance, selections_snoc, settled_snoc, List.length_append]
    omega

theorem awaiting_ne_nil (hs : Accounted s) (h : (settled s.log).length < (puts s.log).length) :
    s.awaiting ≠ [] := by
  intro hnil
  rw [hs, hnil] at h
  simp at h

theorem puts_length_steps (h : Steps s t) : (puts s.log).length ≤ (puts t.log).length := by
  obtain ⟨more, hmore⟩ := log_steps h
  rw [← hmore]
  simp [puts]

/-- Until the item with a number is handled, waits end only as often as items before it await. -/
theorem owed_steps (hs : Accounted s) (hn : n < (puts s.log).length) (h : Steps s t)
    (hlog : .selected .shutdown ∉ t.log) (hleft : (settled t.log).length ≤ n) :
    t.phase.slack + selections t.log + (settled s.log).length ≤
      s.phase.slack + selections s.log + (settled t.log).length := by
  induction h with
  | refl => exact Nat.le_refl _
  | @tail u t hu hstep ih =>
    -- The item was put before `s` and is not handled at `u`, so that something awaits there.
    have hsettled := settled_length_step hstep
    have hmore := puts_length_steps hu
    have hbefore : .selected .shutdown ∉ u.log :=
      fun hmem => hlog ((log_steps (.single hstep)).subset hmem)
    have hawaiting := awaiting_ne_nil (accounted_steps hu hs) (by omega)
    have := ih hbefore (by omega)
    have := owed_step hawaiting hstep hlog
    omega

theorem slack_le (p : Phase) : p.slack ≤ 2 := by
  unfold Phase.slack
  split <;> decide

/-- An item that has been put is handled after so many more waits. -/
theorem settled_of_selections (hs : Accounted s) (hn : n < (puts s.log).length) (h : Steps s t)
    (hlog : .selected .shutdown ∉ t.log)
    (hmore : selections s.log + s.awaiting.length + 1 < selections t.log) :
    n < (settled t.log).length := by
  refine Nat.lt_of_not_le fun hleft => ?_
  have howed := owed_steps hs hn h hlog hleft
  have hlength := congrArg List.length hs
  rw [List.length_append] at hlength
  have := slack_le s.phase
  omega

/-- The loop can still come to the end of a wait. -/
def GoesOn (s : Session) : Prop := ∃ t, Steps s t ∧ selections s.log < selections t.log

theorem goesOn_of_step (h : Step s t) (ht : GoesOn t) : GoesOn s := by
  obtain ⟨u, hu, hlt⟩ := ht
  have hle : selections s.log ≤ selections t.log :=
    (log_steps (.single h)).sublist.countP_le
  exact ⟨u, .head h hu, Nat.lt_of_le_of_lt hle hlt⟩

theorem goesOn_of_select {get : Get} {seesStop : Bool} (h : s.phase = .waiting get seesStop)
    (hg : get ≠ .new) : GoesOn s := by
  refine ⟨_, .single (.select h hg), ?_⟩
  obtain ⟨_, he⟩ | ⟨_, he⟩ | ⟨n, _, he⟩ | ⟨n, message, _, he⟩ := select_cases s get seesStop <;> rw [he] <;>
    simp [advance, selections_snoc, Happening.isSelected]

theorem goesOn_waiting {get : Get} {seesStop : Bool} (h : s.phase = .waiting get seesStop) : GoesOn s := by
  cases get with
  | waiting | done => exact goesOn_of_select h nofun
  | new =>
    cases hq : s.queue with
    | nil => exact goesOn_of_step (.find h hq) (goesOn_of_select rfl nofun)
    | cons i rest => exact goesOn_of_step (.take h rfl hq) (goesOn_of_select rfl nofun)

/-- A loop that has not ended is never stuck. -/
theorem goesOn_of_open (h : s.phase.hasEnded = false) : GoesOn s := by
  have hpublishing : ∀ {s : Session} {c g}, s.phase = .publishing c g → GoesOn s :=
    fun h => goesOn_of_step (.publish h) (goesOn_waiting rfl)
  have hloading : ∀ {s : Session} {c}, s.phase = .loading c → GoesOn s :=
    fun h => goesOn_of_step (.parse h .empty) (hpublishing rfl)
  cases hp : s.phase with
  | waiting get seesStop => exact goesOn_waiting hp
  | called c => exact goesOn_of_step (.begin hp) (hloading rfl)
  | loading c => exact hloading hp
  | publishing c g => exact hpublishing hp
  | ended left? => simp [hp, Phase.hasEnded] at h

end Session

/-! ## Changes -/

def Happening.changePut? : Happening → Option Nat
  | .put ⟨n, .fileChange⟩ => some n
  | _ => none

def Happening.changeBegun? : Happening → Option Nat
  | .began (.change n) => some n
  | _ => none

/-- The changes that have been put, by their numbers. -/
def changesPut (log : List Happening) : List Nat := log.filterMap Happening.changePut?

/-- The changes whose reload has begun. -/
def changesBegun (log : List Happening) : List Nat := log.filterMap Happening.changeBegun?

def Item.change? : Item → Option Nat
  | ⟨n, .fileChange⟩ => some n
  | ⟨_, .watchError _⟩ => none

def Session.changesAwaiting (s : Session) : List Nat := s.awaiting.filterMap Item.change?

theorem changesPut_eq (log : List Happening) : changesPut log = (puts log).filterMap Item.change? := by
  have hitem : ∀ e : Happening, e.changePut? = e.put?.bind Item.change? := by
    rintro (⟨n, _ | _⟩ | _ | _ | _ | _) <;> rfl
  rw [changesPut, puts, List.filterMap_filterMap, funext hitem]

theorem changesBegun_eq (log : List Happening) :
    changesBegun log = (settled log).filterMap Item.change? := by
  have hitem : ∀ e : Happening, e.changeBegun? = e.settled?.bind Item.change? := by
    rintro (_ | (_ | _ | ⟨n, _ | _⟩) | (_ | _) | _ | _) <;> rfl
  rw [changesBegun, settled, List.filterMap_filterMap, funext hitem]

theorem mem_changesBegun : n ∈ changesBegun log ↔ .began (.change n) ∈ log := by
  have hitem : ∀ e : Happening, e.changeBegun? = some n ↔ e = .began (.change n) := by
    rintro (_ | _ | (_ | _) | _ | _) <;> simp [Happening.changeBegun?]
  simp [changesBegun, hitem]

theorem mem_puts : i ∈ puts log ↔ .put i ∈ log := by
  have hitem : ∀ e : Happening, e.put? = some i ↔ e = .put i := by
    rintro (_ | _ | _ | _ | _) <;> simp [Happening.put?]
  simp [puts, hitem]

theorem change?_eq_some : i.change? = some n ↔ i = ⟨n, .fileChange⟩ := by
  obtain ⟨m, _ | _⟩ := i <;> simp [Item.change?]

namespace Session

theorem Numbered.getElem? (h : Numbered log) (hi : i ∈ puts log) : (puts log)[i.number]? = some i := by
  obtain ⟨k, hk⟩ := List.mem_iff_getElem?.mp hi
  have hnumber : (List.range (puts log).length)[k]? = some i.number := by
    rw [← h, List.getElem?_map, hk]
    rfl
  obtain ⟨_, hk'⟩ := List.getElem?_eq_some_iff.mp hnumber
  rw [List.getElem_range] at hk'
  rw [← hk', hk]

theorem Numbered.nodup_changesPut (h : Numbered log) : (changesPut log).Nodup := by
  have hputs : (puts log).Nodup := List.Nodup.of_map Item.number (h ▸ List.nodup_range)
  rw [changesPut_eq]
  exact hputs.filterMap fun i j n hi hj =>
    (change?_eq_some.mp hi).trans (change?_eq_some.mp hj).symm

theorem Accounted.inOrder (h : Accounted s) :
    changesPut s.log = changesBegun s.log ++ s.changesAwaiting := by
  rw [changesPut_eq, changesBegun_eq, h, List.filterMap_append]
  rfl

/-- A reload for a change begins after the change has been put. -/
theorem put_of_began {earlier later : List Happening} (h : Steps (start r) s)
    (hlog : s.log = earlier ++ .began (.change n) :: later) : .put ⟨n, .fileChange⟩ ∈ earlier := by
  have hbefore : earlier ++ [.began (.change n)] <+: s.log := ⟨later, by simp [hlog]⟩
  have hprefix := settled_prefix_puts h hbefore
  rw [puts_snoc, settled_snoc] at hprefix
  have hmem := hprefix.subset (List.mem_append_right _ (List.mem_singleton_self _))
  simpa [Happening.put?, mem_puts] using hmem

/-- A change that has been put is handled by the time at which so many more waits have ended. -/
theorem began_of_selections (hs : Steps (start r) s) (h : Steps s t)
    (hput : .put ⟨n, .fileChange⟩ ∈ s.log) (hlog : .selected .shutdown ∉ t.log)
    (hmore : selections s.log + s.awaiting.length + 1 < selections t.log) :
    .began (.change n) ∈ t.log := by
  have hnumber : (puts s.log)[n]? = some ⟨n, .fileChange⟩ :=
    (numbered_steps hs).getElem? (mem_puts.mpr hput)
  obtain ⟨hn, _⟩ := List.getElem?_eq_some_iff.mp hnumber
  have haccounts := accounted_steps hs (accounted_start r)
  have hsettled := settled_of_selections haccounts hn h hlog hmore
  have hput' := (numbered_steps (hs.trans h)).getElem? (mem_puts.mpr ((log_steps h).subset hput))
  rw [accounted_steps h haccounts, List.getElem?_append_left hsettled] at hput'
  rw [← mem_changesBegun, changesBegun_eq, List.mem_filterMap]
  exact ⟨_, List.mem_of_getElem? hput', rfl⟩

end Session

/-! ## Reloads -/

/-- A reload from its beginning to its end. -/
structure Reloaded where
  cause : Cause
  result : Except Fault Generation

/-- A load that succeeds is published before the reload is over. -/
def Reloaded.happenings (d : Reloaded) : List Happening :=
  match d.result with
  | .ok g => [.began d.cause, .loaded d.cause (.ok g), .published d.cause g]
  | .error f => [.began d.cause, .loaded d.cause (.error f)]

/-- Reloads come one after the other; only the last one may be unfinished. -/
def Session.Serial (s : Session) : Prop :=
  ∃ reloads : List Reloaded,
    s.log.filter Happening.isReload = reloads.flatMap Reloaded.happenings ++ s.phase.unfinished

theorem Phase.Moves.serial (h : Moves p e q) :
    (e.isReload = false ∧ q.unfinished = p.unfinished) ∨
      (e.isReload = true ∧ q.unfinished = p.unfinished ++ [e]) ∨
      (e.isReload = true ∧ q.unfinished = [] ∧ ∃ d : Reloaded, d.happenings = p.unfinished ++ [e]) := by
  cases h with
  | shutdown | timer | change | watchError => exact Or.inl ⟨rfl, rfl⟩
  | begin | parse => exact Or.inr (Or.inl ⟨rfl, rfl⟩)
  | fail c f => exact Or.inr (Or.inr ⟨rfl, rfl, ⟨c, .error f⟩, rfl⟩)
  | publish c g => exact Or.inr (Or.inr ⟨rfl, rfl, ⟨c, .ok g⟩, rfl⟩)

namespace Session

theorem serial_step (h : Step s t) (hs : Serial s) : Serial t := by
  obtain ⟨reloads, hr⟩ := hs
  obtain ⟨news, rfl⟩ | hq | ⟨e, p, change, hm, rfl⟩ := step_cases h
  · exact ⟨reloads, by simpa [put, Happening.isReload] using hr⟩
  · exact ⟨reloads, by rw [hq.log, hq.unfinished, hr]⟩
  · obtain ⟨he, hp⟩ | ⟨he, hp⟩ | ⟨he, hp, d, hd⟩ := hm.serial
    · exact ⟨reloads, by simp [advance, he, hp, hr]⟩
    · exact ⟨reloads, by simp [advance, he, hp, hr]⟩
    · exact ⟨reloads ++ [d], by simp [advance, he, hp, hr, hd]⟩

theorem serial_steps (h : Steps (start r) s) : Serial s := keep serial_step h ⟨[], rfl⟩

/-- What is true of a run at any time. -/
structure Delivers (r : Reloader) (s : Session) : Prop where
  once : (changesPut s.log).Nodup
  inOrder : changesPut s.log = changesBegun s.log ++ s.changesAwaiting
  after : ∀ earlier later n, s.log = earlier ++ .began (.change n) :: later →
    .put ⟨n, .fileChange⟩ ∈ earlier
  soon : ∀ t n, Steps s t → .put ⟨n, .fileChange⟩ ∈ s.log → .selected .shutdown ∉ t.log →
    selections s.log + s.awaiting.length + 1 < selections t.log → .began (.change n) ∈ t.log
  goesOn : s.phase.hasEnded = false → GoesOn s
  stopped : .selected .shutdown ∈ s.log → s.isStopped = true
  serial : ∃ reloads : List Reloaded,
    s.log.filter Happening.isReload = reloads.flatMap Reloaded.happenings ++ s.phase.unfinished
  made : s.made = (ran r s.log).before (s.phase.partly (ran r s.log).reloader)

end Session

/-- In every order of the steps of a run: the changes that have been put are those whose reload has begun and
those that await it, in one order and each of them once; a reload for a change begins after the change was
put, and has begun when as many waits have ended as there were news, and two more, unless one of them has
ended with the stop. Each reload is over before the next one begins. The run makes the changes of the loop
over the triggers that it has handled. -/
theorem changes_delivered {interval : Binary64} {c : Change} (hc : r.start? interval = some c)
    (h : Session.Steps (.start c.reloader) s) : s.Delivers c.reloader := by
  have hrun : c.reloader.loop = .running := by rw [start?_eq hc]
  exact
    { once := (Session.numbered_steps h).nodup_changesPut
      inOrder := (Session.accounted_steps h (Session.accounted_start _)).inOrder
      after := fun _ _ _ hlog => Session.put_of_began h hlog
      soon := fun _ _ ht hput hlog hmore => Session.began_of_selections h ht hput hlog hmore
      goesOn := Session.goesOn_of_open
      stopped := (Session.stopsRightly_steps h).taken
      serial := Session.serial_steps h
      made := (Session.follows_steps hrun h).made }

/-- The timer ends a wait before its get has seen the first change; the second one is put while a reload goes
on, and a load fails in between. -/
theorem changes_delivered_contended :
    ∃ s, Session.Steps (.start freshStart.reloader) s ∧ changesBegun s.log = [0, 1] ∧
      s.made.reloader.reloads = 3 ∧ s.made.reloader.reloadErrors = 1 ∧
      s.Delivers freshStart.reloader := by
  have hc : freshReloader.start? freshReloader.interval = some freshStart := rfl
  have h : ∃ s, Session.Steps (.start freshStart.reloader) s ∧ changesBegun s.log = [0, 1] ∧
      s.made.reloader.reloads = 3 ∧ s.made.reloader.reloadErrors = 1 := by
    refine ⟨_, .head (.find rfl rfl) <| .head (.put _ .fileChange) <| .head (.select rfl nofun) <|
      .head (.begin rfl) <| .head (.put _ .fileChange) <| .head (.parse rfl .empty) <|
      .head (.publish rfl) <| .head (.take rfl rfl rfl) <| .head (.select rfl nofun) <|
      .head (.begin rfl) <| .head (.fail rfl (.notMapping "list")) <| .head (.take rfl rfl rfl) <|
      .head (.select rfl nofun) <| .single (.begin rfl), rfl, rfl, rfl⟩
  obtain ⟨s, h, hbegun, hreloads, herrors⟩ := h
  exact ⟨s, h, hbegun, hreloads, herrors, changes_delivered hc h⟩

end CeilingGate.Reload

import GraphileWorker.Runtime.NotifyRuns

/-! # Wakeups after queue releases

`wake` adds to the count and then notifies; `next` waits for a notification and then takes the
whole count. The consumer is alone and never drops the future it waits on.
-/
namespace GraphileWorker.Runtime
open Foundation Word

inductive Consumer
  /-- Before it creates a future, in this call of `next` or the following one. -/
  | idle
  | waiting (i : ℕ)
  /-- Notified, before its swap. -/
  | swapping
  deriving DecidableEq

/-- `calls` are those of `wake` between their update and `notify_one`. The lists record the
counts passed to `wake`, from their updates on, and those that `next` returned. -/
structure QueueWakeup (w : ℕ) (P : Type) where
  notify : System w ℕ
  count : ℕ
  calls : P → Bool
  consumer : Consumer
  created : ℕ
  passed : List ℕ
  returned : List ℕ

inductive WakeupAct (P : Type)
  | wake (p : P) (count : ℕ)
  | notifyOne (p : P)
  | notified
  | poll
  | resume (heard : Bool)
  | swap

/-- `usize::saturating_add`. -/
def saturatingAdd (w a b : ℕ) : ℕ := min (a + b) (2 ^ w - 1)

namespace QueueWakeup
variable {w : ℕ} {P : Type} [DecidableEq P]

def new (w : ℕ) (P : Type) : QueueWakeup w P := ⟨.new w ℕ,0,fun _ => false,.idle,0,[],[]⟩

/-- The first atomic of `wake`; a count of zero returns at once. -/
def wake (s : QueueWakeup w P) (p : P) (count : ℕ) : QueueWakeup w P :=
  if count = 0 then { s with passed := s.passed ++ [count] }
  else { s with
    count := saturatingAdd w s.count count
    calls := Function.update s.calls p true
    passed := s.passed ++ [count] }

def polled (s : QueueWakeup w P) (i : ℕ) (notify : System w ℕ) : QueueWakeup w P :=
  { s with
    notify := notify
    consumer := if (notify.futures i).any (fun f => f.phase == .ready) then .swapping else .waiting i }

def swap (s : QueueWakeup w P) : QueueWakeup w P :=
  { s with
    count := 0
    consumer := .idle
    returned := if 0 < s.count then s.returned ++ [s.count] else s.returned }

def step (s : QueueWakeup w P) : WakeupAct P → Option (QueueWakeup w P)
  | .wake p count => if s.calls p then none else some (s.wake p count)
  | .notifyOne p => if s.calls p then (s.notify.step .notifyOne).map fun notify =>
      { s with notify := notify, calls := Function.update s.calls p false } else none
  | .notified => match s.consumer with
    | .idle => (s.notify.step (.create s.created)).map fun notify =>
      { s with notify := notify, consumer := .waiting s.created, created := s.created + 1 }
    | _ => none
  | .poll => match s.consumer with
    | .waiting i => (s.notify.step (.poll i)).map (s.polled i)
    | _ => none
  | .resume heard => match s.consumer with
    | .waiting i => (s.notify.step (.resume i heard)).map (s.polled i)
    | _ => none
  | .swap => match s.consumer with
    | .swapping => some s.swap
    | _ => none

/-- Somebody is about to notify, a notification is stored, or the consumer is about to look. -/
def Announced (s : QueueWakeup w P) : Prop :=
  (fields s.notify.state).permit = true ∨ 0 < (fields s.notify.state).pending ∨ (∃ p, s.calls p = true) ∨
    s.consumer = .swapping

end QueueWakeup

section Poll
variable {w i : ℕ} {s s' : System w ℕ} {f : Notified w} {a : Act ℕ}

theorem phase_complete {next : Phase} (hn : next ≠ .dropped) :
    ∃ f', (s.complete i f next).futures i = some f' ∧ f'.phase ≠ .dropped := by
  unfold System.complete
  split
  · exact ⟨_,Function.update_self ..,by simp⟩
  · exact ⟨_,Function.update_self ..,hn⟩

theorem phase_register : ∃ f', (s.register i f).futures i = some f' ∧ f'.phase ≠ .dropped := by
  unfold System.register
  split
  · exact ⟨_,Function.update_self ..,by simp⟩
  · exact ⟨_,Function.update_self ..,by simp⟩
  · exact ⟨_,Function.update_self ..,by simp⟩

theorem phase_of_poll (ha : a = .poll i ∨ ∃ heard, a = .resume i heard) (h : s.step a = some s') :
    ∃ f', s'.futures i = some f' ∧ f'.phase ≠ .dropped := by
  rcases ha with rfl | ⟨heard,rfl⟩
  · obtain ⟨f,_,hs⟩ := Option.bind_eq_some_iff.mp h
    simp only [System.stepFuture] at hs
    split at hs
    · cases hs
      exact phase_register
    · cases hs
      exact phase_complete (by simp)
    · cases hs
  · obtain ⟨f,_,hs⟩ := Option.bind_eq_some_iff.mp h
    simp only [System.stepFuture] at hs
    split at hs
    · cases hs
      exact phase_complete (by simp)
    · cases hs
      refine ⟨_,Function.update_self ..,?_⟩
      cases heard with
      | true => simp
      | false => simp
    · cases hs
      exact phase_complete (by simp)
    · cases hs

theorem Change.keeps {k b : ℕ} {n m : Notify} {p q : Phase} (h : Change k n b p q m) (hr : q ≠ .ready)
    (hd : q ≠ .dropped) : m.permit = n.permit ∧ m.pending = n.pending := by
  cases h with
  | pass | stale | register | alone => exact ⟨rfl,rfl⟩
  | permit => exact absurd rfl hr
  | complete => exact absurd rfl hr
  | drop => exact absurd rfl hd

theorem keeps_of_poll (hw : 0 < w) (ha : a = .poll i ∨ ∃ heard, a = .resume i heard)
    (h : s.step a = some s') (hr : (s'.futures i).any (fun f => f.phase == .ready) = false) :
    (fields s'.state).permit = (fields s.state).permit ∧ (fields s'.state).pending = (fields s.state).pending := by
  obtain ⟨f',hf',hd⟩ := phase_of_poll ha h
  have hfuture : a.future = some i := by
    rcases ha with rfl | ⟨heard,rfl⟩
    · rfl
    · rfl
  have hmove := move_of_step hw h
  cases hmove with
  | create => cases hfuture
  | notifyOne => cases hfuture
  | notifyWaiters => cases hfuture
  | future hi hf hc =>
    obtain rfl := Option.some_inj.mp (hi.symm.trans hfuture)
    have hphase := (Function.update_self ..).symm.trans hf'
    rw [← Option.some_inj.mp hphase] at hd
    rw [hf',← Option.some_inj.mp hphase] at hr
    refine hc.keeps ?_ hd
    rintro rfl
    simp at hr

end Poll

namespace QueueWakeup
variable {w : ℕ} {P : Type} [DecidableEq P] {s s' : QueueWakeup w P}

/-- What holds between any two steps. The sum is exact as long as no update can saturate. -/
structure Accounted (s : QueueWakeup w P) : Prop where
  positive : ∀ count ∈ s.returned, 0 < count
  sum_le : s.returned.sum + s.count ≤ s.passed.sum
  sum_eq : s.passed.sum < 2 ^ w → s.returned.sum + s.count = s.passed.sum
  announced : 0 < s.count → s.Announced

omit [DecidableEq P] in
theorem accounted_new : (new w P).Accounted where
  positive := by simp [new]
  sum_le := by simp [new]
  sum_eq := by simp [new]
  announced := by simp [new]

omit [DecidableEq P] in
theorem Announced.keep (h : s.Announced) (hc : s.consumer ≠ .swapping) (hcalls : s'.calls = s.calls)
    (hpermit : (fields s'.notify.state).permit = (fields s.notify.state).permit)
    (hpending : (fields s'.notify.state).pending = (fields s.notify.state).pending) : s'.Announced := by
  unfold Announced
  rw [hpermit,hpending,hcalls]
  rcases h with h | h | h | h
  · exact .inl h
  · exact .inr (.inl h)
  · exact .inr (.inr (.inl h))
  · exact absurd h hc

theorem Accounted.wake (h : s.Accounted) (p : P) (count : ℕ) : (s.wake p count).Accounted := by
  have hle := h.sum_le
  have heq := h.sum_eq
  unfold QueueWakeup.wake
  split
  · next hz =>
    refine ⟨h.positive,?_,?_,h.announced⟩
    · simpa [hz] using hle
    · simpa [hz] using heq
  · have hsum : (s.passed ++ [count]).sum = s.passed.sum + count := by simp
    refine ⟨h.positive,?_,?_,?_⟩
    · dsimp only
      rw [hsum,saturatingAdd]
      omega
    · dsimp only
      rw [hsum,saturatingAdd]
      intro hlt
      have := heq (by omega)
      omega
    · exact fun _ => .inr (.inr (.inl ⟨p,Function.update_self ..⟩))

omit [DecidableEq P] in
theorem Accounted.swap (h : s.Accounted) : s.swap.Accounted := by
  have hle := h.sum_le
  have heq := h.sum_eq
  have hsum : s.swap.returned.sum = s.returned.sum + s.count := by
    unfold QueueWakeup.swap
    dsimp only
    split
    · simp
    · omega
  refine ⟨?_,?_,?_,fun hpos => absurd hpos (Nat.lt_irrefl 0)⟩
  · intro count hmem
    unfold QueueWakeup.swap at hmem
    dsimp only at hmem
    split at hmem
    · next hpos =>
      rcases List.mem_append.mp hmem with hmem | hmem
      · exact h.positive count hmem
      · rw [List.mem_singleton.mp hmem]
        exact hpos
    · exact h.positive count hmem
  · rw [hsum]
    exact hle
  · rw [hsum]
    exact heq

omit [DecidableEq P] in
theorem Accounted.polled (h : s.Accounted) (hw : 0 < w) {i : ℕ} (hi : s.consumer = .waiting i) {a : Act ℕ}
    (ha : a = .poll i ∨ ∃ heard, a = .resume i heard) {notify : System w ℕ} (hs : s.notify.step a = some notify) :
    (s.polled i notify).Accounted := by
  refine ⟨h.positive,h.sum_le,h.sum_eq,fun hpos => ?_⟩
  cases hr : (notify.futures i).any fun f => f.phase == .ready with
  | true =>
    have hswap : (s.polled i notify).consumer = .swapping := by simp [QueueWakeup.polled,hr]
    exact .inr (.inr (.inr hswap))
  | false =>
    obtain ⟨hpermit,hpending⟩ := keeps_of_poll hw ha hs hr
    exact (h.announced hpos).keep (by simp [hi]) rfl hpermit hpending

theorem Accounted.step (h : s.Accounted) (hw : 0 < w) {a : WakeupAct P} (hs : s.step a = some s') :
    s'.Accounted := by
  cases a with
  | wake p count =>
    simp only [QueueWakeup.step] at hs
    split at hs
    · cases hs
    · cases hs
      exact h.wake p count
  | notifyOne p =>
    simp only [QueueWakeup.step] at hs
    split at hs
    · cases hs
      refine ⟨h.positive,h.sum_le,h.sum_eq,fun _ => ?_⟩
      unfold Announced
      dsimp only
      rw [fields_markOneNotified hw]
      rcases Notify.wakes_notifyOne (fields s.notify.state) (fields s.notify.state).broadcast with hp | hp | hp
      · exact .inl hp
      · exact .inr (.inl hp)
      · exact absurd (Notify.broadcast_notifyOne _) hp
    · cases hs
  | notified =>
    simp only [QueueWakeup.step] at hs
    split at hs
    · next hc =>
      obtain ⟨notify,hn,rfl⟩ := Option.map_eq_some_iff.mp hs
      have hstate : notify.state = s.notify.state := by
        simp only [System.step] at hn
        split at hn
        · cases hn
          rfl
        · cases hn
      exact ⟨h.positive,h.sum_le,h.sum_eq,fun hpos =>
        (h.announced hpos).keep (by simp [hc]) rfl (by rw [hstate]) (by rw [hstate])⟩
    · cases hs
  | poll =>
    simp only [QueueWakeup.step] at hs
    split at hs
    · next i hi =>
      obtain ⟨notify,hn,rfl⟩ := Option.map_eq_some_iff.mp hs
      exact h.polled hw hi (.inl rfl) hn
    · cases hs
  | resume heard =>
    simp only [QueueWakeup.step] at hs
    split at hs
    · next i hi =>
      obtain ⟨notify,hn,rfl⟩ := Option.map_eq_some_iff.mp hs
      exact h.polled hw hi (.inr ⟨heard,rfl⟩) hn
    · cases hs
  | swap =>
    simp only [QueueWakeup.step] at hs
    split at hs
    · cases hs
      exact h.swap
    · cases hs

end QueueWakeup

/-- Only positive counts are returned, none is lost or returned twice, and while a count is stored, it is
announced. -/
theorem wakeups_neither_lost_nor_duplicated {w : ℕ} {P : Type} [DecidableEq P] (hw : 0 < w)
    {s : QueueWakeup w P} (h : Reaches QueueWakeup.step (fun _ _ => True) (QueueWakeup.new w P) s) :
    (∀ count ∈ s.returned, 0 < count) ∧
    (s.passed.sum < 2 ^ w → s.returned.sum + s.count = s.passed.sum) ∧
    (0 < s.count → (fields s.notify.state).permit = true ∨ 0 < (fields s.notify.state).pending ∨
      (∃ p, s.calls p = true) ∨ s.consumer = .swapping) := by
  have hacc : s.Accounted :=
    h.invariant (fun _ _ _ _ hs hinv => hinv.step hw hs) QueueWakeup.accounted_new
  exact ⟨hacc.positive,hacc.sum_eq,hacc.announced⟩

def twoWakes : List (WakeupAct Bool) :=
  [.notified,.poll,.wake true 2,.notifyOne true,.resume false,.wake false 3,.swap]

/-- Both counts are returned at once, and the second call still owes its notification. -/
theorem second_wake_coalesced : ∃ s : QueueWakeup 64 Bool, s.returned = [5] ∧ s.calls false = true ∧
    s.returned.sum + s.count = 5 := by
  obtain ⟨s,hr,hreturned,hcalls,hpassed⟩ : ∃ s, Reaches QueueWakeup.step (fun _ _ => True) (QueueWakeup.new 64 Bool) s ∧
      s.returned = [5] ∧ s.calls false = true ∧ s.passed = [2,3] := exists_reaches_of_exec twoWakes (by decide +kernel)
  have hsum := (wakeups_neither_lost_nor_duplicated (by decide) hr).2.1
  rw [hpassed] at hsum
  exact ⟨s,hreturned,hcalls,hsum (by decide)⟩

end GraphileWorker.Runtime

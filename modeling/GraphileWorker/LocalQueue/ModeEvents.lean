import GraphileWorker.LocalQueue.Boundary
import GraphileWorker.LocalQueue.TtlReturn
import Mathlib.Data.List.Chain

/-! # The mode of a local queue as its observers see it

`set_mode` calls the hooks after it has dropped the write lock, with the two modes in local
variables. `set_mode_ttl_expired` and `release` call no hook.
-/
namespace GraphileWorker.LocalQueue
open GraphileWorker.Foundation
variable {J : Type}

structure SetModeContext where
  oldMode : Mode
  newMode : Mode
  deriving DecidableEq

/-- The argument of `set_mode`, at a counter of the loop that stands before the call. -/
def LoopPc.target : LoopPc J → Option Mode
  | .start => some .polling
  | .setWaiting _ => some .waiting
  | .setReleased _ => some .released
  | _ => none

def Thread.target : Thread J → Option Mode
  | .cacheSetPolling | .drained _ => some .polling
  | _ => none

/-- The counters of the loop between the store of a mode and the `notify_waiters` of `set_mode`. -/
def LoopPc.emits : LoopPc J → Bool
  | .startNotify | .waitingNotify _ | .releasedNotify _ => true
  | _ => false

namespace Shared

/-- The change of mode that a call of `set_mode` makes, if it does not return early. -/
def change (sh : Shared J) (m : Mode) : Option SetModeContext :=
  if sh.keepsMode m then none else some ⟨sh.mode,m⟩

/-- The change of mode by a write outside `set_mode`. -/
def overwrite (sh : Shared J) : Thread J → Option SetModeContext
  | .timerExpire => if sh.mode = .waiting then some ⟨sh.mode,.ttlExpired⟩ else none
  | .releaseMode => if sh.mode = .released then none else some ⟨sh.mode,.released⟩
  | _ => none

end Shared

namespace State

def target (s : State J) : Action J → Option Mode
  | .loop _ => s.loop.target
  | .thread t _ => (s.thr t).target
  | _ => none

def emits (s : State J) : Action J → Bool
  | .loop _ => s.loop.emits
  | .thread t _ => (s.thr t).broadcasts
  | _ => false

/-- The change of mode that a step makes through `set_mode`. -/
def told (s : State J) (a : Action J) : Option SetModeContext := (s.target a).bind s.sh.change

/-- The change of mode that a step makes without calling the hooks: the TTL of a waiting
queue expires, or a queue that is not released yet is released. -/
def silent (s : State J) : Action J → Option SetModeContext
  | .thread t _ => s.sh.overwrite (s.thr t)
  | _ => none

end State

structure Observed (J : Type) where
  st : State J := initial
  /-- The calls of `set_mode` that have written the mode and not called the hooks yet. -/
  inside : List (Option Tid × SetModeContext) := []
  events : List SetModeContext := []

namespace Observed

def step (cfg : Config) (o : Observed J) (a : Action J) : Option (Observed J) :=
  (LocalQueue.step cfg o.st a).map fun s =>
    if o.st.emits a then
      { st := s
        inside := o.inside.filter fun p => p.1 ≠ a.actor
        events := o.events ++ (o.inside.filter fun p => p.1 = a.actor).map Prod.snd }
    else { o with st := s, inside := o.inside ++ (o.st.told a).toList.map (Prod.mk a.actor) }

end Observed

/-- No mode change falls inside another one. -/
def Sequential (o : Observed J) (a : Action J) : Prop :=
  (o.st.told a).or (o.st.silent a) ≠ none → o.inside = []

instance (o : Observed J) (a : Action J) : Decidable (Sequential o a) :=
  inferInstanceAs (Decidable ((o.st.told a).or (o.st.silent a) ≠ none → o.inside = []))

/-- The events tell the mode: they start from `Starting`, each goes on where the one
before it ended, and the last one ends in the current mode. -/
structure ModeHistory (events : List SetModeContext) (mode : Mode) : Prop where
  starts : ∀ e ∈ events.head?, e.oldMode = .starting
  chained : events.IsChain fun e e' => e'.oldMode = e.newMode
  current : (events.getLast?.map SetModeContext.newMode).getD .starting = mode

namespace ModeHistory
variable {events : List SetModeContext} {mode : Mode}

theorem nil : ModeHistory [] .starting where
  starts := by simp
  chained := List.isChain_nil
  current := rfl

theorem concat {c : SetModeContext} (h : ModeHistory events c.oldMode) : ModeHistory (events ++ [c]) c.newMode where
  starts := by
    intro e he
    cases events with
    | nil =>
      cases he
      exact h.current.symm
    | cons d rest => exact h.starts e he
  chained := by
    rw [List.isChain_append]
    refine ⟨h.chained,List.isChain_singleton c,?_⟩
    intro e he d hd
    cases hd
    have hcur := h.current
    rw [Option.mem_def.mp he] at hcur
    exact hcur.symm
  current := by simp

end ModeHistory

section Steps
variable {cfg : Config} {sh sh' : Shared J} {i : Input J} {t : Tid} {th : Thread J} {s : State J} {a : Action J}
  {c : SetModeContext}

def left (m : Mode) (c : Option SetModeContext) : Mode := (c.map SetModeContext.newMode).getD m

theorem change_of_kept {m : Mode} (h : sh.keepsMode m = true) : sh.change m = none := if_pos h

theorem change_of_set {m : Mode} (h : sh.keepsMode m = false) : sh.change m = some ⟨sh.mode,m⟩ := by
  unfold Shared.change
  rw [h]
  exact if_neg Bool.false_ne_true

theorem loopStep_mode {pc pc' : LoopPc J} (h : loopStep cfg sh pc i = some (sh',pc')) :
    sh'.mode = left sh.mode (pc.target.bind sh.change) := by
  have hs := loopStep_cases h
  cases hs with
  | startKept _ hk | waitingKept _ _ hk | releasedKept _ _ hk =>
    simp only [LoopPc.target,Option.bind_some,change_of_kept hk]
    rfl
  | startSet _ hk | waitingSet _ _ hk | releasedSet _ _ hk =>
    simp only [LoopPc.target,Option.bind_some,change_of_set hk]
    rfl
  | _ => rfl

theorem threadStep_mode {th' : Thread J} (h : threadStep sh t th i = some (sh',th')) :
    sh'.mode = left sh.mode ((th.target.bind sh.change).or (sh.overwrite th)) := by
  have hs := threadStep_cases h
  cases hs with
  | cachePollingKept _ hk | drainedKept _ _ hk =>
    simp only [Thread.target,Option.bind_some,change_of_kept hk]
    rfl
  | cachePollingSet _ hk | drainedSet _ _ hk =>
    simp only [Thread.target,Option.bind_some,change_of_set hk]
    rfl
  | timerExpire _ hm =>
    simp only [Shared.overwrite,if_pos hm]
    rfl
  | timerLate _ hm =>
    simp only [Shared.overwrite,if_neg hm]
    rfl
  | releaseMode =>
    by_cases hm : sh.mode = .released
    · simp only [Shared.overwrite,if_pos hm]
      exact hm.symm
    · simp only [Shared.overwrite,if_neg hm]
      rfl
  | returning who pc _ _ _ hr => cases hr <;> rfl
  | _ => rfl

theorem abandon_mode (h : abandon sh th = some sh') : sh'.mode = sh.mode := by
  have ha := abandon_cases h
  cases ha <;> rfl

theorem step_mode {s' : State J} (h : step cfg s a = some s') :
    s'.sh.mode = left s.sh.mode ((s.told a).or (s.silent a)) := by
  have hs := step_cases h
  cases hs with
  | loop i sh pc hl =>
    have hn : s.silent (.loop i) = none := rfl
    rw [hn,Option.or_none]
    exact loopStep_mode hl
  | thread t i sh th ht => exact threadStep_mode ht
  | die t sh _ ha => exact abandon_mode ha
  | cancel t sh _ ha => exact abandon_mode ha
  | spawnTimer | spawnDelay | start => rfl

theorem told_oldMode (h : s.told a = some c) : c.oldMode = s.sh.mode := by
  obtain ⟨m,-,hc⟩ := Option.bind_eq_some_iff.mp h
  obtain ⟨-,he⟩ := Option.ite_none_left_eq_some.mp hc
  cases he
  rfl

theorem told_of_emits (h : s.emits a = true) : s.told a = none := by
  have hl : ∀ pc : LoopPc J, pc.emits = true → pc.target = none := by
    intro pc hpc
    cases pc with
    | startNotify | waitingNotify | releasedNotify => rfl
    | _ => cases hpc
  have ht : ∀ th : Thread J, th.broadcasts = true → th.target = none := by
    intro th hth
    cases th with
    | cacheNotify | drainedNotify => rfl
    | _ => cases hth
  unfold State.told
  cases a with
  | loop i => rw [State.target,hl s.loop h,Option.bind_none]
  | thread t i => rw [State.target,ht (s.thr t) h,Option.bind_none]
  | _ => cases h

theorem of_silent (h : s.silent a = some c) : s.told a = none ∧ s.emits a = false ∧ c.newMode ≠ s.sh.mode := by
  cases a with
  | thread t i =>
    simp only [State.silent] at h
    simp only [State.told,State.target,State.emits]
    cases hth : s.thr t with
    | timerExpire =>
      rw [hth] at h
      obtain ⟨hm,he⟩ := Option.ite_none_right_eq_some.mp h
      cases he
      refine ⟨rfl,rfl,?_⟩
      rw [hm]
      exact Mode.noConfusion
    | releaseMode =>
      rw [hth] at h
      obtain ⟨hm,he⟩ := Option.ite_none_left_eq_some.mp h
      cases he
      exact ⟨rfl,rfl,Ne.symm hm⟩
    | _ =>
      rw [hth] at h
      cases h
  | _ => cases h

end Steps

namespace Observed
variable {cfg : Config} {o o' : Observed J} {a : Action J}

theorem step_eq_some (h : o.step cfg a = some o') : LocalQueue.step cfg o.st a = some o'.st ∧
    (o.st.emits a = true → o'.inside = (o.inside.filter fun p => p.1 ≠ a.actor) ∧
      o'.events = o.events ++ (o.inside.filter fun p => p.1 = a.actor).map Prod.snd) ∧
    (o.st.emits a = false → o'.inside = o.inside ++ (o.st.told a).toList.map (Prod.mk a.actor) ∧
      o'.events = o.events) := by
  obtain ⟨s,hs,he⟩ := Option.map_eq_some_iff.mp h
  cases hemit : o.st.emits a with
  | true =>
    rw [hemit,if_pos rfl] at he
    cases he
    exact ⟨hs,fun _ => ⟨rfl,rfl⟩,fun hf => absurd hf.symm Bool.false_ne_true⟩
  | false =>
    rw [hemit,if_neg Bool.false_ne_true] at he
    cases he
    exact ⟨hs,fun hf => absurd hf Bool.false_ne_true,fun _ => ⟨rfl,rfl⟩⟩

/-- Between two changes of the mode the events tell it, and within one they tell the
mode that it started from. -/
inductive Follows (o : Observed J) : Prop
  | between (hi : o.inside = []) (h : ModeHistory o.events o.st.sh.mode)
  | within (x : Option Tid) (c : SetModeContext) (hi : o.inside = [(x,c)]) (hm : c.newMode = o.st.sh.mode)
      (h : ModeHistory o.events c.oldMode)

theorem Follows.history (h : o.Follows) (hi : o.inside = []) : ModeHistory o.events o.st.sh.mode := by
  cases h with
  | between _ hh => exact hh
  | within x c hx =>
    rw [hi] at hx
    cases hx

theorem Follows.step (hf : o.Follows) (hseq : Sequential o a) (hn : o.st.silent a = none)
    (h : o.step cfg a = some o') : o'.Follows := by
  obtain ⟨hst,hcall,hkeep⟩ := step_eq_some h
  have hmode := step_mode hst
  rw [hn,Option.or_none] at hmode
  cases hemit : o.st.emits a with
  | true =>
    obtain ⟨hin,hev⟩ := hcall hemit
    rw [told_of_emits hemit] at hmode
    have hmode : o'.st.sh.mode = o.st.sh.mode := hmode
    cases hf with
    | between hi hh =>
      rw [hi] at hin hev
      refine .between hin ?_
      rw [hev,hmode]
      simpa using hh
    | within x c hi hm hh =>
      rw [hi] at hin hev
      by_cases hx : x = a.actor
      · refine .between (by simpa [hx] using hin) ?_
        have hev : o'.events = o.events ++ [c] := by simpa [hx] using hev
        rw [hev,hmode,← hm]
        exact hh.concat
      · refine .within x c (by simpa [hx] using hin) (hm.trans hmode.symm) ?_
        have hev : o'.events = o.events := by simpa [hx] using hev
        rwa [hev]
  | false =>
    obtain ⟨hin,hev⟩ := hkeep hemit
    cases htold : o.st.told a with
    | none =>
      rw [htold] at hin hmode
      have hin : o'.inside = o.inside := by simpa using hin
      have hmode : o'.st.sh.mode = o.st.sh.mode := hmode
      cases hf with
      | between hi hh =>
        refine .between (hin.trans hi) ?_
        rwa [hev,hmode]
      | within x c hi hm hh =>
        refine .within x c (hin.trans hi) (hm.trans hmode.symm) ?_
        rwa [hev]
    | some c =>
      have hi : o.inside = [] := hseq (by simp [htold])
      rw [htold] at hin hmode
      refine .within a.actor c (by simpa [hi] using hin) hmode.symm ?_
      rw [hev,told_oldMode htold]
      exact hf.history hi

theorem not_history_of_silent {c : SetModeContext} (hseq : Sequential o a) (hc : o.st.silent a = some c)
    (h : o.step cfg a = some o') (hh : ModeHistory o.events o.st.sh.mode) :
    o.inside = [] ∧ o'.inside = [] ∧ ¬ModeHistory o'.events o'.st.sh.mode := by
  obtain ⟨htold,hemit,hne⟩ := of_silent hc
  obtain ⟨hst,-,hkeep⟩ := step_eq_some h
  obtain ⟨hin,hev⟩ := hkeep hemit
  have hi : o.inside = [] := hseq (by simp [hc])
  rw [hi,htold] at hin
  refine ⟨hi,hin,?_⟩
  intro hh'
  have hmode := step_mode hst
  rw [htold,hc,Option.none_or] at hmode
  have hsame : o'.st.sh.mode = o.st.sh.mode := by rw [← hh'.current,hev,hh.current]
  exact hne (hmode.symm.trans hsame)

end Observed

def observe (cfg : Config) (actions : List (Action J)) : Option (Observed J) :=
  exec (Observed.step cfg) Sequential {} actions

/-- In a sequential run the events tell the mode exactly when no TTL expires on a waiting queue and no release
meets a queue that is not released yet. -/
theorem mode_events_chain_iff (cfg : Config) (actions : List (Action J)) (o : Observed J)
    (h : observe cfg actions = some o) :
    (∀ past p, past <+: actions → observe cfg past = some p → p.inside = [] →
      ModeHistory p.events p.st.sh.mode) ↔
    ∀ past a p, past ++ [a] <+: actions → observe cfg past = some p → p.st.silent a = none := by
  constructor
  · intro hall past a p hpre hp
    obtain ⟨rest,rfl⟩ := hpre
    obtain ⟨q,hq,-⟩ := exec_append.mp h
    obtain ⟨p',hp',hseq,hstep⟩ := exec_concat.mp hq
    cases hp.symm.trans hp'
    cases hc : p.st.silent a with
    | none => rfl
    | some c =>
      have hi : p.inside = [] := hseq (by simp [hc])
      have hh := hall past p ((List.prefix_append past [a]).trans (List.prefix_append _ rest)) hp hi
      obtain ⟨-,hi',hnot⟩ := Observed.not_history_of_silent hseq hc hstep hh
      exact absurd (hall (past ++ [a]) q (List.prefix_append _ rest) hq hi') hnot
  · intro hsil past p hpre hp
    have hfollows : p.Follows := by
      induction past using List.reverseRecOn generalizing p with
      | nil =>
        cases hp
        exact .between rfl .nil
      | append_singleton past a ih =>
        obtain ⟨q,hq,hseq,hstep⟩ := exec_concat.mp hp
        have hbefore := ih q ((List.prefix_append past [a]).trans hpre) hq
        exact hbefore.step hseq (hsil past a q hpre hq) hstep
    exact hfollows.history

def firstWaiting : List (Action ℕ) := firstFetch [7] ++ loopTicks 6

theorem first_batch_told : ∃ o : Observed ℕ, observe {} firstWaiting = some o ∧
    o.events = [⟨.starting,.polling⟩,⟨.polling,.waiting⟩] ∧
    ∀ past p, past <+: firstWaiting → observe {} past = some p → p.inside = [] →
      ModeHistory p.events p.st.sh.mode := by
  have he : (observe {} firstWaiting).map Observed.events = some [⟨.starting,.polling⟩,⟨.polling,.waiting⟩] := by
    decide
  obtain ⟨o,ho,hev⟩ := Option.map_eq_some_iff.mp he
  refine ⟨o,ho,hev,(mode_events_chain_iff {} firstWaiting o ho).mpr ?_⟩
  intro past a p hpre _
  have hmem : a ∈ firstWaiting := hpre.subset (by simp)
  have hloop : ∀ a ∈ firstWaiting, ∀ s : State ℕ, s.silent a = none := by
    simp [firstWaiting,firstFetch,loopTicks,State.silent]
  exact hloop a hmem p.st

def Thread.ended : Thread J → Bool
  | .finished _ => true
  | _ => false

/-- Timer 1 returns the first batch, and consumer 2 asks for a job afterwards. -/
def consumedAfterExpiry : List (Action ℕ) :=
  expiredRun ++ threadTicks 1 3 ++ [Action.thread 1 .commit,Action.thread 1 (.response true)] ++ threadTicks 1 1 ++
  Action.start 2 (.getJob false) :: threadTicks 2 7

/-- The expiry was not told, and the next event starts from a mode that no event has led to. -/
theorem expiry_breaks_chain : ∃ o : Observed ℕ, observe {} consumedAfterExpiry = some o ∧ o.inside = [] ∧
    (o.st.thr 1).ended = true ∧ (o.st.thr 2).ended = true ∧
    o.events = [⟨.starting,.polling⟩,⟨.polling,.waiting⟩,⟨.ttlExpired,.polling⟩] ∧
    ¬ModeHistory o.events o.st.sh.mode := by
  have he : (observe {} consumedAfterExpiry).map
      (fun o => (o.inside,(o.st.thr 1).ended,(o.st.thr 2).ended,o.events)) =
      some ([],true,true,[⟨.starting,.polling⟩,⟨.polling,.waiting⟩,⟨.ttlExpired,.polling⟩]) := by decide
  obtain ⟨o,ho,hf⟩ := Option.map_eq_some_iff.mp he
  simp only [Prod.mk.injEq] at hf
  obtain ⟨hi,h₁,h₂,hev⟩ := hf
  refine ⟨o,ho,hi,h₁,h₂,hev,?_⟩
  intro hh
  have hchain := hh.chained
  rw [hev] at hchain
  simp at hchain

end GraphileWorker.LocalQueue

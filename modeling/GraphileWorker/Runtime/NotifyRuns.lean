import Mathlib.Data.Int.ModEq
import GraphileWorker.Foundation.Ownership
import GraphileWorker.Foundation.Runs
import GraphileWorker.Runtime.NotifyWord

/-! # Futures on one notification primitive

A poll is cut at its accesses to the word: the registration, `try_complete` before and after the
listener, and the answer of the listener, which may be any. A run may not broadcast more often during
the life of a future than the counter can tell apart.
-/
namespace GraphileWorker.Runtime
open Foundation Word

inductive Phase
  /-- Not registered, and never polled. -/
  | fresh
  /-- Registered, between two polls. -/
  | parked
  /-- In a poll, before the first `try_complete`. -/
  | checking
  /-- In a poll, before its listener is polled. -/
  | listening
  /-- In a poll, after the listener was ready. -/
  | woken
  | ready
  | dropped
  /-- Its poll failed the assertion on the number of waiters. -/
  | panicked
  deriving DecidableEq

namespace Phase

def registered : Phase → Bool
  | parked => true
  | checking => true
  | listening => true
  | woken => true
  | _ => false

def live (p : Phase) : Bool := p == fresh || p.registered

end Phase

/-- `broadcast` is the snapshot of the counter, `born` the number of broadcasts before the creation. -/
structure Notified (w : ℕ) where
  broadcast : BitVec w
  phase : Phase
  born : ℕ

structure System (w : ℕ) (F : Type) where
  state : BitVec w
  futures : F → Option (Notified w)
  broadcasts : ℕ

/-- `Notify::new()`, before any future. -/
def System.new (w : ℕ) (F : Type) : System w F := ⟨0#w,fun _ => none,0⟩

inductive Act (F : Type)
  | create (i : F)
  | notifyOne
  | notifyWaiters
  | poll (i : F)
  /-- The next step of a poll; `heard` is the answer of the listener, where that is asked. -/
  | resume (i : F) (heard : Bool)
  | drop (i : F)
  deriving DecidableEq

def Act.future {F : Type} : Act F → Option F
  | poll i => some i
  | resume i _ => some i
  | drop i => some i
  | _ => none

variable {w : ℕ} {F : Type} [DecidableEq F]

namespace System

def create (s : System w F) (i : F) : System w F :=
  { s with futures := Function.update s.futures i (some ⟨notifyBroadcast s.state,.fresh,s.broadcasts⟩) }

def put (s : System w F) (i : F) (f : Notified w) (phase : Phase) (state : BitVec w) : System w F :=
  { s with state := state, futures := Function.update s.futures i (some { f with phase := phase }) }

/-- `try_complete` of a registered future, which goes on at `next` if it has to wait. -/
def complete (s : System w F) (i : F) (f : Notified w) (next : Phase) : System w F :=
  match tryComplete s.state f.broadcast with
  | some state => s.put i f .ready state
  | none => s.put i f next s.state

def register (s : System w F) (i : F) (f : Notified w) : System w F :=
  match registerWaiter s.state f.broadcast with
  | .ready state => s.put i f .ready state
  | .waiting state => s.put i f .checking state
  | .tooMany => s.put i f .panicked s.state

def stepFuture (s : System w F) (i : F) (f : Notified w) : Act F → Option (System w F)
  | .poll _ => match f.phase with
    | .fresh => some (s.register i f)
    | .parked => some (s.complete i f .listening)
    | _ => none
  | .resume _ heard => match f.phase with
    | .checking => some (s.complete i f .listening)
    | .listening => some (s.put i f (if heard then .woken else .parked) s.state)
    | .woken => some (s.complete i f .checking)
    | _ => none
  | .drop _ => match f.phase with
    | .fresh => some (s.put i f .dropped s.state)
    | .parked => some (s.put i f .dropped (dropWaiter s.state f.broadcast).1)
    | .ready => some (s.put i f .dropped s.state)
    | .panicked => some (s.put i f .dropped s.state)
    | _ => none
  | _ => none

def step (s : System w F) : Act F → Option (System w F)
  | .create i => match s.futures i with
    | none => some (s.create i)
    | some _ => none
  | .notifyOne => some { s with state := (markOneNotified s.state).1 }
  | .notifyWaiters => some { s with state := markAllNotified s.state, broadcasts := s.broadcasts + 1 }
  | .poll i => (s.futures i).bind fun f => s.stepFuture i f (.poll i)
  | .resume i heard => (s.futures i).bind fun f => s.stepFuture i f (.resume i heard)
  | .drop i => (s.futures i).bind fun f => s.stepFuture i f (.drop i)

/-- Fewer broadcasts in the life of a future than the counter tells apart. -/
def WithinLife (s : System w F) (a : Act F) : Prop :=
  a = .notifyWaiters → ∀ i f, s.futures i = some f → f.phase.live = true →
    s.broadcasts + 1 - f.born < 2 ^ counterBits w

end System

/-- A step of a future with the snapshot `b`, from one phase to another, on the fields. -/
inductive Change (k : ℕ) (n : Notify) (b : ℕ) : Phase → Phase → Notify → Prop
  | pass {p q : Phase} (hr : q.registered = p.registered) (hl : q.live = true → p.live = true) (hq : q ≠ .ready) :
      Change k n b p q n
  | stale {p q : Phase} (hb : n.broadcast ≠ b) (hq : q.live = false) : Change k n b p q n
  | permit (hb : n.broadcast = b) (hp : n.permit = true) : Change k n b .fresh .ready { n with permit := false }
  | register (hb : n.broadcast = b) (hp : n.permit = false) (hw : n.waiters + 1 < 2 ^ k) :
      Change k n b .fresh .checking { n with waiters := n.waiters + 1 }
  | complete {p : Phase} (hr : p.registered = true) (hb : n.broadcast = b) (hp : 0 < n.pending) (hw : 0 < n.waiters) :
      Change k n b p .ready { n with waiters := n.waiters - 1, pending := min (n.pending - 1) (n.waiters - 1) }
  | drop (hb : n.broadcast = b) (hw : 0 < n.waiters) :
      Change k n b .parked .dropped { n with waiters := n.waiters - 1, pending := min n.pending (n.waiters - 1) }
  /-- The branches for a word without waiters. -/
  | alone {p q : Phase} (hr : p.registered = true) (hq : q.live = false) (hb : n.broadcast = b) (hw : n.waiters = 0) :
      Change k n b p q n

inductive Move (s : System w F) : Act F → System w F → Prop
  | create {i : F} (hi : s.futures i = none) : Move s (.create i) (s.create i)
  | notifyOne {state : BitVec w} (hs : fields state = (fields s.state).notifyOne) :
      Move s .notifyOne { s with state := state }
  | notifyWaiters {state : BitVec w} (hs : fields state = { fields s.state with
        broadcast := ((fields s.state).broadcast + 1) % 2 ^ counterBits w
        waiters := 0
        pending := 0 }) :
      Move s .notifyWaiters { s with state := state, broadcasts := s.broadcasts + 1 }
  | future {a : Act F} {i : F} {f : Notified w} {q : Phase} {state : BitVec w}
      (ha : a.future = some i) (hf : s.futures i = some f)
      (hc : Change (counterBits w) (fields s.state) f.broadcast.toNat f.phase q (fields state)) :
      Move s a (s.put i f q state)

section
variable (hb : 0 < w) {s s' : System w F} {i : F} {f : Notified w}
include hb

theorem change_complete (next : Phase) (hr : f.phase.registered = true) (hn : next.registered = true) :
    ∃ q state, s.complete i f next = s.put i f q state ∧
      Change (counterBits w) (fields s.state) f.broadcast.toNat f.phase q (fields state) := by
  have hf : (tryComplete s.state f.broadcast).map fields = (fields s.state).tryComplete f.broadcast.toNat :=
    fields_tryComplete hb
  unfold System.complete
  cases ht : tryComplete s.state f.broadcast with
  | none =>
    refine ⟨next,s.state,rfl,.pass (hn.trans hr.symm) (fun _ => by simp [Phase.live,hr]) ?_⟩
    rintro rfl
    cases hn
  | some state =>
    rw [ht,Option.map_some] at hf
    refine ⟨.ready,state,rfl,?_⟩
    unfold Notify.tryComplete at hf
    split at hf
    · next hne =>
      rw [Option.some.inj hf]
      exact .stale hne rfl
    · next hbr =>
      have hbr := not_not.mp hbr
      split at hf
      · cases hf
      · next hp =>
        split at hf
        · next hw =>
          rw [Option.some.inj hf]
          exact .alone hr rfl hbr hw
        · next hw =>
          rw [Option.some.inj hf]
          exact .complete hr hbr (Nat.pos_of_ne_zero hp) (Nat.pos_of_ne_zero hw)

theorem change_register (hp : f.phase = .fresh) : ∃ q state, s.register i f = s.put i f q state ∧
    Change (counterBits w) (fields s.state) f.broadcast.toNat f.phase q (fields state) := by
  have hf := @fields_registerWaiter w hb s.state f.broadcast
  unfold System.register
  rw [hp]
  cases hr : registerWaiter s.state f.broadcast with
  | tooMany => exact ⟨.panicked,s.state,rfl,.pass rfl (by simp [Phase.live,Phase.registered]) (by simp)⟩
  | waiting state =>
    rw [hr] at hf
    obtain ⟨hf,hlt⟩ := hf
    refine ⟨.checking,state,rfl,?_⟩
    obtain ⟨hbr,hpermit,hstate⟩ := Notify.registerWaiter_parks hf
    rw [hstate]
    unfold maxCounter at hlt
    exact .register hbr hpermit (by omega)
  | ready state =>
    rw [hr] at hf
    refine ⟨.ready,state,rfl,?_⟩
    dsimp only at hf
    unfold Notify.registerWaiter at hf
    split at hf
    · next hne =>
      rw [← (Prod.mk.inj hf).1]
      exact .stale hne rfl
    · next hbr =>
      split at hf
      · next hpermit =>
        rw [← (Prod.mk.inj hf).1]
        exact .permit (not_not.mp hbr) hpermit
      · exact absurd (Prod.mk.inj hf).2 (by simp)

omit [DecidableEq F] in
theorem change_drop (hp : f.phase = .parked) :
    Change (counterBits w) (fields s.state) f.broadcast.toNat f.phase .dropped
      (fields (dropWaiter s.state f.broadcast).1) := by
  rw [fields_dropWaiter hb,hp]
  unfold Notify.dropWaiter
  split
  · next hne => exact .stale hne rfl
  · next hbr =>
    have hbr := not_not.mp hbr
    split
    · next hw => exact .alone rfl rfl hbr hw
    · next hw => exact .drop hbr (Nat.pos_of_ne_zero hw)

theorem move_of_step {a : Act F} (h : s.step a = some s') : Move s a s' := by
  cases a with
  | create i =>
    simp only [System.step] at h
    split at h
    · next hi =>
      cases h
      exact .create hi
    · cases h
  | notifyOne =>
    cases h
    exact .notifyOne (fields_markOneNotified hb)
  | notifyWaiters =>
    cases h
    exact .notifyWaiters (fields_markAllNotified hb)
  | poll i =>
    obtain ⟨f,hf,hs⟩ := Option.bind_eq_some_iff.mp h
    simp only [System.stepFuture] at hs
    split at hs
    · next hp =>
      cases hs
      obtain ⟨q,state,he,hc⟩ := change_register hb (s := s) (i := i) hp
      rw [he]
      exact .future rfl hf hc
    · next hp =>
      cases hs
      obtain ⟨q,state,he,hc⟩ := change_complete hb (s := s) (i := i) (f := f) .listening (by rw [hp]; rfl) rfl
      rw [he]
      exact .future rfl hf hc
    · cases hs
  | resume i heard =>
    obtain ⟨f,hf,hs⟩ := Option.bind_eq_some_iff.mp h
    simp only [System.stepFuture] at hs
    split at hs
    · next hp =>
      cases hs
      obtain ⟨q,state,he,hc⟩ := change_complete hb (s := s) (i := i) (f := f) .listening (by rw [hp]; rfl) rfl
      rw [he]
      exact .future rfl hf hc
    · next hp =>
      cases hs
      refine .future rfl hf ?_
      rw [hp]
      cases heard
      · exact .pass rfl (fun _ => rfl) (by decide)
      · exact .pass rfl (fun _ => rfl) (by decide)
    · next hp =>
      cases hs
      obtain ⟨q,state,he,hc⟩ := change_complete hb (s := s) (i := i) (f := f) .checking (by rw [hp]; rfl) rfl
      rw [he]
      exact .future rfl hf hc
    · cases hs
  | drop i =>
    obtain ⟨f,hf,hs⟩ := Option.bind_eq_some_iff.mp h
    simp only [System.stepFuture] at hs
    split at hs
    · next hp =>
      cases hs
      exact .future rfl hf (hp ▸ .pass rfl (by decide) (by decide))
    · next hp =>
      cases hs
      exact .future rfl hf (change_drop hb hp)
    · next hp =>
      cases hs
      exact .future rfl hf (hp ▸ .pass rfl (by decide) (by decide))
    · next hp =>
      cases hs
      exact .future rfl hf (hp ▸ .pass rfl (by decide) (by decide))
    · cases hs

end

/-- Every notification that is pending has its waiter, and a permit is only stored once all have one. -/
structure Notify.Balanced (n : Notify) : Prop where
  pending_le : n.pending ≤ n.waiters
  permit : n.permit = true → n.pending = n.waiters

theorem Notify.Balanced.notifyOne {n : Notify} (h : n.Balanced) : n.notifyOne.Balanced := by
  have hle := h.pending_le
  unfold Notify.notifyOne
  split
  · next hlt =>
    refine ⟨hlt,fun hp => ?_⟩
    have := h.permit hp
    omega
  · next hlt => exact ⟨hle,fun _ => Nat.le_antisymm hle (Nat.le_of_not_lt hlt)⟩

/-- A registered future of the current broadcast. -/
def isCurrent (broadcasts : ℕ) : Option (Notified w) → Bool
  | none => false
  | some f => f.phase.registered && f.born == broadcasts

structure Consistent (s : System w F) : Prop where
  balanced : (fields s.state).Balanced
  counted : ∃ l, Listed (isCurrent s.broadcasts) s.futures l ∧ l.length = (fields s.state).waiters
  broadcast : (fields s.state).broadcast = s.broadcasts % 2 ^ counterBits w
  snapshot : ∀ i f, s.futures i = some f → f.broadcast.toNat = f.born % 2 ^ counterBits w
  born : ∀ i f, s.futures i = some f → f.born ≤ s.broadcasts
  life : ∀ i f, s.futures i = some f → f.phase.live = true → s.broadcasts - f.born < 2 ^ counterBits w

theorem mod_eq_iff {m a b : ℕ} (hab : a ≤ b) (hlt : b - a < m) : b % m = a % m ↔ a = b := by
  constructor
  · intro h
    have hd : m ∣ b - a := (Nat.modEq_iff_dvd' hab).mp h.symm
    have := Nat.eq_zero_of_dvd_of_lt hd hlt
    omega
  · rintro rfl
    rfl

section
variable {s s' : System w F} {i : F} {f : Notified w} {q : Phase} {state : BitVec w}

omit [DecidableEq F] in
theorem Consistent.broadcast_eq_iff (h : Consistent s) (hf : s.futures i = some f) (hl : f.phase.live = true) :
    (fields s.state).broadcast = f.broadcast.toNat ↔ f.born = s.broadcasts := by
  rw [h.broadcast,h.snapshot i f hf]
  exact mod_eq_iff (h.born i f hf) (h.life i f hf hl)

omit [DecidableEq F] in
theorem Consistent.waiters_pos (h : Consistent s) (hf : s.futures i = some f) (hr : f.phase.registered = true)
    (hb : f.born = s.broadcasts) : 0 < (fields s.state).waiters := by
  obtain ⟨l,hl,hlen⟩ := h.counted
  rw [← hlen]
  refine List.length_pos_of_mem ((hl.mem i).mpr ?_)
  simp [hf,isCurrent,hr,hb]

theorem futures_put {j : F} {g : Notified w}
    (hf : s.futures i = some f) (hj : (s.put i f q state).futures j = some g) :
    ∃ g', s.futures j = some g' ∧ g.broadcast = g'.broadcast ∧ g.born = g'.born ∧ (g = g' ∨ j = i ∧ g.phase = q) := by
  by_cases he : j = i
  · subst he
    simp only [System.put,Function.update_self,Option.some.injEq] at hj
    subst hj
    exact ⟨f,hf,rfl,rfl,.inr ⟨rfl,rfl⟩⟩
  · simp only [System.put,Function.update_of_ne he] at hj
    exact ⟨g,hj,rfl,rfl,.inl rfl⟩

theorem Consistent.put (h : Consistent s) (hf : s.futures i = some f)
    (hq : q.live = true → f.phase.live = true) (hn : (fields state).Balanced)
    (hb : (fields state).broadcast = (fields s.state).broadcast)
    (hw : (fields state).waiters + (isCurrent s.broadcasts (some f)).toNat =
      (fields s.state).waiters + (isCurrent s.broadcasts (some { f with phase := q })).toNat) :
    Consistent (s.put i f q state) where
  balanced := hn
  counted := by
    obtain ⟨l,hl,hlen⟩ := h.counted
    obtain ⟨l',hl',hlen'⟩ := hl.update i (some { f with phase := q })
    rw [hf] at hlen'
    refine ⟨l',hl',?_⟩
    show l'.length = (fields state).waiters
    omega
  broadcast := hb.trans h.broadcast
  snapshot j g hg := by
    obtain ⟨g',hg',hgb,hborn,-⟩ := futures_put hf hg
    rw [hgb,hborn]
    exact h.snapshot j g' hg'
  born j g hg := by
    obtain ⟨g',hg',-,hborn,-⟩ := futures_put hf hg
    rw [hborn]
    exact h.born j g' hg'
  life j g hg hl := by
    obtain ⟨g',hg',-,hborn,hcase⟩ := futures_put hf hg
    rw [hborn]
    refine h.life j g' hg' ?_
    rcases hcase with rfl | ⟨rfl,hph⟩
    · exact hl
    · rw [hf] at hg'
      cases hg'
      exact hq (hph ▸ hl)

omit [DecidableEq F] in
theorem isCurrent_eq (n : ℕ) (g : Notified w) : isCurrent n (some g) = (g.phase.registered && g.born == n) := rfl

theorem Phase.live_of_registered {p : Phase} (h : p.registered = true) : p.live = true := by simp [live,h]

theorem Phase.not_registered {p : Phase} (h : p.live = false) : p.registered = false := by
  simp only [live,Bool.or_eq_false_iff] at h
  exact h.2

theorem Consistent.change (h : Consistent s) (hf : s.futures i = some f)
    (hc : Change (counterBits w) (fields s.state) f.broadcast.toNat f.phase q (fields state)) :
    Consistent (s.put i f q state) := by
  have hle := h.balanced.pending_le
  have hpermit := h.balanced.permit
  have current : f.phase.registered = true → (fields s.state).broadcast = f.broadcast.toNat →
      isCurrent s.broadcasts (some f) = true := by
    intro hr hb
    have hborn := (h.broadcast_eq_iff hf (Phase.live_of_registered hr)).mp hb
    simp [isCurrent_eq,hr,hborn]
  generalize hn : fields state = n at hc
  generalize hp : f.phase = p at hc
  cases hc with
  | pass hr hl hq =>
    refine h.put hf (hp ▸ hl) (hn ▸ h.balanced) (by rw [hn]) ?_
    rw [hn,isCurrent_eq,isCurrent_eq,hp,hr]
  | stale hb hq =>
    have hnot : isCurrent s.broadcasts (some f) = false := by
      rw [isCurrent_eq]
      cases hr : f.phase.registered with
      | false => rfl
      | true =>
        have hborn := mt (h.broadcast_eq_iff hf (Phase.live_of_registered hr)).mpr hb
        simpa using hborn
    refine h.put hf (by simp [hq]) (hn ▸ h.balanced) (by rw [hn]) ?_
    rw [hn,hnot,isCurrent_eq,Phase.not_registered hq]
    rfl
  | permit hb hpm =>
    refine h.put hf (by simp [Phase.live,Phase.registered]) (hn ▸ ⟨hle,by simp⟩) (by rw [hn]) ?_
    rw [hn,isCurrent_eq,isCurrent_eq,hp]
    rfl
  | register hb hpm hw =>
    have hborn := (h.broadcast_eq_iff hf (by rw [hp]; rfl)).mp hb
    refine h.put hf (by simp [hp,Phase.live]) (hn ▸ ⟨Nat.le_succ_of_le hle,by simp [hpm]⟩) (by rw [hn]) ?_
    rw [hn,isCurrent_eq,isCurrent_eq,hp,hborn]
    simp [Phase.registered]
  | complete hr hb hpd hw =>
    rw [← hp] at hr
    have hbal : Notify.Balanced { fields s.state with
        waiters := (fields s.state).waiters - 1
        pending := min ((fields s.state).pending - 1) ((fields s.state).waiters - 1) } := by
      refine ⟨Nat.min_le_right _ _,fun hpm => ?_⟩
      have := hpermit hpm
      dsimp only
      omega
    refine h.put hf (by simp [Phase.live,Phase.registered]) (hn ▸ hbal) (by rw [hn]) ?_
    rw [hn,current hr hb,isCurrent_eq]
    simp only [Phase.registered,Bool.false_and,Bool.toNat_true,Bool.toNat_false]
    omega
  | drop hb hw =>
    have hbal : Notify.Balanced { fields s.state with
        waiters := (fields s.state).waiters - 1
        pending := min (fields s.state).pending ((fields s.state).waiters - 1) } := by
      refine ⟨Nat.min_le_right _ _,fun hpm => ?_⟩
      have := hpermit hpm
      dsimp only
      omega
    refine h.put hf (by simp [Phase.live,Phase.registered]) (hn ▸ hbal) (by rw [hn]) ?_
    rw [hn,current (by rw [hp]; rfl) hb,isCurrent_eq]
    simp only [Phase.registered,Bool.false_and,Bool.toNat_true,Bool.toNat_false]
    omega
  | alone hr hq hb hw =>
    rw [← hp] at hr
    have hborn := (h.broadcast_eq_iff hf (Phase.live_of_registered hr)).mp hb
    have := h.waiters_pos hf hr hborn
    omega

theorem fields_zero : fields (0#w) = {} := by
  simp [fields,notifyHasPermit,Word.notifyWaiters,notifyPending,notifyBroadcast,bitField]

omit [DecidableEq F] in
theorem consistent_new : Consistent (System.new w F) where
  balanced := by
    show (fields (0#w)).Balanced
    rw [fields_zero]
    exact ⟨Nat.le_refl 0,by simp⟩
  counted := by
    refine ⟨[],⟨List.nodup_nil,fun k => by simp [System.new,isCurrent]⟩,?_⟩
    show 0 = (fields (0#w)).waiters
    rw [fields_zero]
  broadcast := by
    show (fields (0#w)).broadcast = 0 % _
    rw [fields_zero,Nat.zero_mod]
  snapshot i f hf := by cases hf
  born i f hf := by cases hf
  life i f hf := by cases hf

theorem notifyOne_waiters (n : Notify) : n.notifyOne.waiters = n.waiters := by
  unfold Notify.notifyOne
  split <;> rfl

theorem Consistent.create (h : Consistent s) (hi : s.futures i = none) : Consistent (s.create i) := by
  have cases : ∀ {j g}, (s.create i).futures j = some g →
      g = ⟨notifyBroadcast s.state,.fresh,s.broadcasts⟩ ∨ s.futures j = some g := by
    intro j g hg
    by_cases hj : j = i
    · subst hj
      simp only [System.create,Function.update_self,Option.some.injEq] at hg
      exact .inl hg.symm
    · simp only [System.create,Function.update_of_ne hj] at hg
      exact .inr hg
  refine { balanced := h.balanced, broadcast := h.broadcast, counted := ?_, snapshot := ?_, born := ?_, life := ?_ }
  · obtain ⟨l,hl,hlen⟩ := h.counted
    obtain ⟨l',hl',hlen'⟩ := hl.update i (some ⟨notifyBroadcast s.state,.fresh,s.broadcasts⟩)
    rw [hi] at hlen'
    exact ⟨l',hl',hlen'.trans hlen⟩
  · intro j g hg
    rcases cases hg with rfl | hg
    · exact h.broadcast
    · exact h.snapshot j g hg
  · intro j g hg
    rcases cases hg with rfl | hg
    · exact Nat.le_refl _
    · exact h.born j g hg
  · intro j g hg hl
    rcases cases hg with rfl | hg
    · show s.broadcasts - s.broadcasts < _
      rw [Nat.sub_self]
      exact Nat.two_pow_pos _
    · exact h.life j g hg hl

omit [DecidableEq F] in
theorem Consistent.notifyWaiters (h : Consistent s) (hlife : s.WithinLife (F := F) .notifyWaiters)
    (hs : fields state = { fields s.state with
      broadcast := ((fields s.state).broadcast + 1) % 2 ^ counterBits w
      waiters := 0
      pending := 0 }) :
    Consistent { s with state := state, broadcasts := s.broadcasts + 1 } where
  balanced := by
    show (fields state).Balanced
    rw [hs]
    exact ⟨Nat.le_refl 0,fun _ => rfl⟩
  counted := by
    refine ⟨[],⟨List.nodup_nil,fun j => ?_⟩,?_⟩
    · show j ∈ [] ↔ isCurrent (s.broadcasts + 1) (s.futures j) = true
      cases hj : s.futures j with
      | none => simp [isCurrent]
      | some g =>
        have := h.born j g hj
        simp only [List.not_mem_nil,isCurrent,Bool.and_eq_true,beq_iff_eq,false_iff,not_and]
        omega
    · show 0 = (fields state).waiters
      rw [hs]
  broadcast := by
    show (fields state).broadcast = (s.broadcasts + 1) % _
    rw [hs,h.broadcast]
    exact Nat.mod_add_mod _ _ _
  snapshot := h.snapshot
  born j g hg := Nat.le_succ_of_le (h.born j g hg)
  life j g hg hl := hlife rfl j g hg hl

theorem Consistent.move (h : Consistent s) {a : Act F} (hlife : s.WithinLife a) (hm : Move s a s') :
    Consistent s' := by
  cases hm with
  | future ha hf hc => exact h.change hf hc
  | create hi => exact h.create hi
  | notifyWaiters hs => exact h.notifyWaiters hlife hs
  | @notifyOne state hs =>
    refine { snapshot := h.snapshot, born := h.born, life := h.life, balanced := ?_, counted := ?_, broadcast := ?_ }
    · show (fields state).Balanced
      rw [hs]
      exact h.balanced.notifyOne
    · obtain ⟨l,hl,hlen⟩ := h.counted
      refine ⟨l,hl,hlen.trans ?_⟩
      show (fields s.state).waiters = (fields state).waiters
      rw [hs,notifyOne_waiters]
    · show (fields state).broadcast = _
      rw [hs,Notify.broadcast_notifyOne]
      exact h.broadcast

theorem consistent_of_reaches (hb : 0 < w) (h : Reaches System.step System.WithinLife (System.new w F) s) :
    Consistent s :=
  h.invariant (fun _ _ _ hlife hs hc => hc.move hlife (move_of_step hb hs)) consistent_new

end

/-- The changes of the four counters: each by one, or all cleared by a broadcast. -/
inductive CounterMove (m : ℕ) (n : Notify) : Notify → Prop
  | keep : CounterMove m n n
  | storePermit : CounterMove m n { n with permit := true }
  | takePermit (h : n.permit = true) : CounterMove m n { n with permit := false }
  | addPending (h : n.pending + 1 < m) : CounterMove m n { n with pending := n.pending + 1 }
  | addWaiter (h : n.waiters + 1 < m) : CounterMove m n { n with waiters := n.waiters + 1 }
  | complete (hp : 0 < n.pending) (hw : 0 < n.waiters) :
      CounterMove m n { n with waiters := n.waiters - 1, pending := n.pending - 1 }
  | drop (hw : 0 < n.waiters) :
      CounterMove m n { n with waiters := n.waiters - 1, pending := min n.pending (n.waiters - 1) }
  | broadcast : CounterMove m n { n with broadcast := (n.broadcast + 1) % m, waiters := 0, pending := 0 }

/-- Single notifications that were not received yet. -/
def Notify.undelivered (n : Notify) : ℕ := n.pending + n.permit.toNat

section
variable {s s' : System w F} {i : F} {f : Notified w} {a : Act F}

theorem min_pred_eq {n : Notify} (h : n.pending ≤ n.waiters) : min (n.pending - 1) (n.waiters - 1) = n.pending - 1 :=
  Nat.min_eq_left (Nat.sub_le_sub_right h 1)

theorem counterMove_of_move (hb : 0 < w) (h : Consistent s) (hm : Move s a s') :
    CounterMove (2 ^ counterBits w) (fields s.state) (fields s'.state) := by
  cases hm with
  | create hi => exact .keep
  | @notifyOne state hs =>
    show CounterMove _ _ (fields state)
    have hlt : (fields s.state).waiters < 2 ^ counterBits w := waiters_lt hb
    rw [hs]
    unfold Notify.notifyOne
    split
    · exact .addPending (by omega)
    · exact .storePermit
  | @notifyWaiters state hs =>
    show CounterMove _ _ (fields state)
    rw [hs]
    exact .broadcast
  | @future _ i f q state ha hf hc =>
    show CounterMove _ _ (fields state)
    generalize fields state = n at hc
    generalize f.phase = p at hc
    cases hc with
    | pass => exact .keep
    | stale => exact .keep
    | permit hb hp => exact .takePermit hp
    | register hb hp hw => exact .addWaiter hw
    | complete hr hb hp hw =>
      rw [min_pred_eq h.balanced.pending_le]
      exact .complete hp hw
    | drop hb hw => exact .drop hw
    | alone => exact .keep

theorem Move.of_future (hm : Move s a s') (ha : a.future = some i)
    (hf : s.futures i = some f) : ∃ q state, s' = s.put i f q state ∧
      Change (counterBits w) (fields s.state) f.broadcast.toNat f.phase q (fields state) := by
  cases hm with
  | create => cases ha
  | notifyOne => cases ha
  | notifyWaiters => cases ha
  | @future _ j g q state ha' hg hc =>
    obtain rfl : i = j := Option.some.inj (ha.symm.trans ha')
    rw [hf] at hg
    cases hg
    exact ⟨q,state,rfl,hc⟩

theorem ready_takes_one (h : Consistent s) (hm : Move s a s') (hf : s.futures i = some f)
    (hl : f.phase.live = true) (hborn : f.born = s.broadcasts)
    (ha : a.future = some i)
    (hr : (s'.futures i).map Notified.phase = some .ready) :
    (fields s'.state).undelivered + 1 = (fields s.state).undelivered := by
  obtain ⟨q,state,rfl,hc⟩ := hm.of_future ha hf
  have hq : q = .ready := by simpa [System.put] using hr
  subst hq
  have hbr := (h.broadcast_eq_iff hf hl).mpr hborn
  show (fields state).undelivered + 1 = _
  generalize fields state = n at hc
  generalize hp : f.phase = p at hc
  cases hc with
  | pass hr hl hq => exact absurd rfl hq
  | stale hb => exact absurd hbr hb
  | permit hb hpm => simp [Notify.undelivered,hpm]
  | complete hr hb hpd hw =>
    rw [min_pred_eq h.balanced.pending_le]
    simp only [Notify.undelivered]
    omega
  | alone hr hq hb hw =>
    have := h.waiters_pos hf (hp ▸ hr) hborn
    omega

omit [DecidableEq F] in
theorem registerWaiter_stale {state b : BitVec w} (h : notifyBroadcast state ≠ b) :
    registerWaiter state b = .ready state := by
  unfold registerWaiter
  rw [if_pos h]

omit [DecidableEq F] in
theorem tryComplete_stale {state b : BitVec w} (h : notifyBroadcast state ≠ b) :
    tryComplete state b = some state := by
  unfold tryComplete
  rw [if_pos h]

theorem poll_after_broadcast (h : Consistent s) (hf : s.futures i = some f) (hborn : f.born < s.broadcasts)
    (hp : f.phase = .fresh ∨ f.phase = .parked) : s.step (.poll i) = some (s.put i f .ready s.state) := by
  have hl : f.phase.live = true := by rcases hp with hp | hp <;> rw [hp] <;> rfl
  have hne : notifyBroadcast s.state ≠ f.broadcast :=
    broadcast_ne_iff.mpr (mt (h.broadcast_eq_iff hf hl).mp (Nat.ne_of_lt hborn))
  rcases hp with hp | hp
  · simp [System.step,hf,System.stepFuture,hp,System.register,registerWaiter_stale hne]
  · simp [System.step,hf,System.stepFuture,hp,System.complete,tryComplete_stale hne]

end

/-- The waiters are the registered futures of the current broadcast, a step changes the counters one by one, older
futures are ready at their next poll, and the others become ready by single notifications only. -/
theorem notify_word_consistent (hb : 0 < w) (s : System w F)
    (h : Reaches System.step System.WithinLife (System.new w F) s) :
    ((fields s.state).pending ≤ (fields s.state).waiters ∧ (fields s.state).waiters ≤ (counterMask w).toNat ∧
      ((fields s.state).permit = true → (fields s.state).pending = (fields s.state).waiters)) ∧
    (∃ l, Listed (isCurrent s.broadcasts) s.futures l ∧ l.length = (fields s.state).waiters) ∧
    (∀ a s', s.step a = some s' → CounterMove (2 ^ counterBits w) (fields s.state) (fields s'.state)) ∧
    (∀ i f, s.futures i = some f → f.phase.registered = true → notifyBroadcast s.state = f.broadcast →
      Word.notifyWaiters s.state ≠ 0#w) ∧
    (∀ i f, s.futures i = some f → f.born < s.broadcasts → f.phase = .fresh ∨ f.phase = .parked →
      s.step (.poll i) = some (s.put i f .ready s.state)) ∧
    ∀ i f a s', s.futures i = some f → f.phase.live = true → f.born = s.broadcasts →
      a.future = some i → s.step a = some s' → (s'.futures i).map Notified.phase = some .ready →
      (fields s'.state).undelivered + 1 = (fields s.state).undelivered := by
  have hc := consistent_of_reaches hb h
  have hlt : (fields s.state).waiters < 2 ^ counterBits w := waiters_lt hb
  refine ⟨⟨hc.balanced.pending_le,?_,hc.balanced.permit⟩,hc.counted,?_,?_,?_,?_⟩
  · rw [toNat_counterMask hb]
    unfold maxCounter
    omega
  · intro a s' hs
    exact counterMove_of_move hb hc (move_of_step hb hs)
  · intro i f hf hr hbr hz
    have hborn := (hc.broadcast_eq_iff hf (Phase.live_of_registered hr)).mp (congrArg BitVec.toNat hbr)
    have hpos := hc.waiters_pos hf hr hborn
    have hw : (fields s.state).waiters = 0 := eq_zero_iff.mp hz
    omega
  · intro i f hf hborn hp
    exact poll_after_broadcast hc hf hborn hp
  · intro i f a s' hf hl hborn ha hs hr
    exact ready_takes_one hc (move_of_step hb hs) hf hl hborn ha hr

def quiet (_ : System w F) (a : Act F) : Prop := a ≠ .notifyWaiters

instance (s : System w F) (a : Act F) : Decidable (quiet s a) := inferInstanceAs (Decidable (a ≠ .notifyWaiters))

theorem reaches_quiet {labels : List (Act F)} {s t : System w F} (h : exec System.step quiet s labels = some t) :
    Reaches System.step System.WithinLife s t :=
  (reaches_exec h).mono fun _ _ hq ha => absurd ha hq

def park (i : ℕ) : List (Act ℕ) := [.create i,.poll i,.resume i false,.resume i false]

theorem parked_and_notified : ∃ s : System 64 ℕ,
    exec System.step quiet (System.new 64 ℕ) (park 0 ++ [.notifyOne]) = some s ∧
    fields s.state = ⟨false,1,1,0⟩ ∧ ∃ l, Listed (isCurrent s.broadcasts) s.futures l ∧ l.length = 1 := by
  have hfields : (exec System.step quiet (System.new 64 ℕ) (park 0 ++ [.notifyOne])).map (fun s => fields s.state) =
      some ⟨false,1,1,0⟩ := by decide +kernel
  obtain ⟨s,hs,hf⟩ := Option.map_eq_some_iff.mp hfields
  have h := notify_word_consistent (by decide) s (reaches_quiet hs)
  rw [hf] at h
  exact ⟨s,hs,hf,h.2.1⟩

section
variable {s s' : System w F} {i : F} {f : Notified w}

theorem ready_by_permit (hp : (fields s.state).permit = true) {j : F} (hj : s.futures j = none) :
    ∃ s₁ s₂, s.step (.create j) = some s₁ ∧ s₁.step (.poll j) = some s₂ ∧
      (s₂.futures j).map Notified.phase = some .ready := by
  have hreg : registerWaiter s.state (notifyBroadcast s.state) = .ready (s.state &&& ~~~permitBit w) := by
    have hpermit : notifyHasPermit s.state = true := hp
    unfold registerWaiter
    rw [if_neg (by simp),if_pos hpermit]
  refine ⟨s.create j,(s.create j).register j ⟨notifyBroadcast s.state,.fresh,s.broadcasts⟩,?_,?_,?_⟩
  · simp only [System.step,hj]
  · simp [System.step,System.create,System.stepFuture]
  · simp [System.register,System.create,hreg,System.put]

theorem drop_registered (hf : s.futures i = some f) (hr : f.phase.registered = true)
    (hs : s.step (.drop i) = some s') :
    f.phase = .parked ∧ s' = s.put i f .dropped (dropWaiter s.state f.broadcast).1 := by
  simp only [System.step,hf,Option.bind_some,System.stepFuture] at hs
  split at hs
  · next hp => simp [hp,Phase.registered] at hr
  · next hp => exact ⟨hp,(Option.some.inj hs).symm⟩
  · next hp => simp [hp,Phase.registered] at hr
  · next hp => simp [hp,Phase.registered] at hr
  · cases hs

end

/-- A dropped waiter leaves its notification behind exactly when it comes from before the last broadcast, or not
every waiter has one, or it is the only one and there is a permit besides. -/
theorem drop_keeps_notifications (hb : 0 < w) (s s' : System w F)
    (h : Reaches System.step System.WithinLife (System.new w F) s) (i : F) (f : Notified w)
    (hf : s.futures i = some f) (hr : f.phase.registered = true) (hs : s.step (.drop i) = some s') :
    (((fields s'.state).undelivered = (fields s.state).undelivered ∨
        ((fields s'.state).waiters = 0 ∧ (fields s'.state).permit = true)) ↔
      (f.born < s.broadcasts ∨ (fields s.state).pending < (fields s.state).waiters ∨
        ((fields s.state).waiters = 1 ∧ (fields s.state).permit = true))) ∧
    ((fields s'.state).permit = true → ∀ j, s'.futures j = none → ∃ s₁ s₂, s'.step (.create j) = some s₁ ∧
      s₁.step (.poll j) = some s₂ ∧ (s₂.futures j).map Notified.phase = some .ready) := by
  have hc := consistent_of_reaches hb h
  have hiff := hc.broadcast_eq_iff hf (Phase.live_of_registered hr)
  have hborn := hc.born i f hf
  have hle := hc.balanced.pending_le
  refine ⟨?_,fun hp j hj => ready_by_permit hp hj⟩
  obtain ⟨hp,rfl⟩ := drop_registered hf hr hs
  have hch := change_drop hb hp (s := s)
  rw [hp] at hch
  show ((fields (dropWaiter s.state f.broadcast).1).undelivered = _ ∨ _) ↔ _
  simp only [System.put]
  generalize fields (dropWaiter s.state f.broadcast).1 = n at hch
  cases hch with
  | pass hreg => cases hreg
  | stale hne =>
    have hlt : f.born < s.broadcasts := Nat.lt_of_le_of_ne hborn (mt hiff.mpr hne)
    exact iff_of_true (.inl rfl) (.inl hlt)
  | alone hreg hq hbr hw =>
    have := hc.waiters_pos hf hr (hiff.mp hbr)
    omega
  | drop hbr hw =>
    have hcur := hiff.mp hbr
    simp only [Notify.undelivered]
    constructor
    · rintro (heq | ⟨hone,hpm⟩)
      · exact .inr (.inl (by omega))
      · exact .inr (.inr ⟨by omega,hpm⟩)
    · rintro (hlt | hlt | ⟨hone,hpm⟩)
      · omega
      · exact .inl (by omega)
      · exact .inr ⟨by omega,hpm⟩

theorem other_waiter_keeps_notification : ∃ s s' : System 64 ℕ,
    exec System.step quiet (System.new 64 ℕ) (park 0 ++ park 1 ++ [.notifyOne]) = some s ∧ s.step (.drop 0) = some s' ∧
    ((fields s'.state).undelivered = (fields s.state).undelivered ∨
      ((fields s'.state).waiters = 0 ∧ (fields s'.state).permit = true)) := by
  have hfields : (exec System.step quiet (System.new 64 ℕ) (park 0 ++ park 1 ++ [.notifyOne])).map (fun s =>
      (fields s.state,(s.futures 0).map Notified.phase,(s.step (.drop 0)).isSome)) =
        some (⟨false,2,1,0⟩,some .parked,true) := by decide +kernel
  obtain ⟨s,hs,hf⟩ := Option.map_eq_some_iff.mp hfields
  simp only [Prod.mk.injEq,Option.map_eq_some_iff] at hf
  obtain ⟨hw,⟨f,hi,hp⟩,hd⟩ := hf
  obtain ⟨s',hs'⟩ := Option.isSome_iff_exists.mp hd
  have hr : f.phase.registered = true := by rw [hp]; rfl
  exact ⟨s,s',hs,hs',(drop_keeps_notifications (by decide) s s' (reaches_quiet hs) 0 f hi hr hs').1.mpr
    (.inr (.inl (by rw [hw]; decide)))⟩

theorem dropped_notification_lost : (exec System.step quiet (System.new 64 ℕ) (park 0 ++ [.notifyOne])).map
      (fun s => fields s.state) = some ⟨false,1,1,0⟩ ∧
    (exec System.step quiet (System.new 64 ℕ) (park 0 ++ [.notifyOne,.drop 0])).map
      (fun s => fields s.state) = some ⟨false,0,0,0⟩ ∧
    (exec System.step quiet (System.new 64 ℕ) (park 0 ++ [.notifyOne,.drop 0] ++ park 1)).map
      (fun s => (s.futures 1).map Notified.phase) = some (some .parked) := by
  decide +kernel

end GraphileWorker.Runtime

import GraphileWorker.LocalQueue.Inversion
import GraphileWorker.Foundation.Runs
import Mathlib.Algebra.Order.Group.Multiset
import Mathlib.Data.List.Nodup
import Mathlib.Tactic.Abel

/-! # Where the claims of a local queue are

In the result that the running fetch has not appended yet, in the cache, among the pending
returns, with a consumer, or acknowledged as returned.
-/
namespace GraphileWorker.LocalQueue
open Foundation
variable {J : Type} {i : Input J} {t : Tid} {th : Thread J} {a : Action J} {c : Claim J}
  {ok : State J → Action J → Prop} {labels : List (Action J)}

/-- The result that the fetch holds and has not appended. -/
def LoopPc.held : LoopPc J → List (Claim J)
  | .fetchDropGuard r | .fetchEnd r | .fetchNotify r => r.getD []
  | .delayThreshold jobs | .delayActivate jobs | .delayForget jobs | .delaySpawn jobs
  | .delayReplace _ jobs | .append jobs => jobs
  | _ => []

structure Places (J : Type) where
  held : List (Claim J)
  jobQueue : List (Claim J)
  pending : List (Claim J)
  handed : List (Tid × Claim J)
  acked : List (Claim J)
  issued : List (Claim J)

def places (sh : Shared J) (held : List (Claim J)) : Places J :=
  ⟨held,sh.jobQueue,sh.pending,sh.handed,sh.acked,sh.issued⟩

inductive Move : Places J → Places J → Prop
  | stay (p : Places J) : Move p p
  | issue (p : Places J) (jobs : List J) (h : p.held = []) :
      Move p { p with held := number p.issued.length jobs, issued := p.issued ++ number p.issued.length jobs }
  | append (p : Places J) : Move p { p with held := [], jobQueue := p.jobQueue ++ p.held }
  | hand (p : Places J) (t : Tid) (c : Claim J) (rest : List (Claim J)) (h : p.jobQueue = c :: rest) :
      Move p { p with jobQueue := rest, handed := p.handed ++ [(t,c)] }
  | drain (p : Places J) : Move p { p with pending := p.pending ++ p.jobQueue, jobQueue := [] }
  | ack (p : Places J) : Move p { p with acked := p.acked ++ p.pending, pending := [] }

@[simp] theorem held_afterDelay (cfg : Config) (jobs : List (Claim J)) : (afterDelay cfg jobs).held = jobs := by
  rcases afterDelay_cases cfg jobs with ⟨_,h⟩ | ⟨rfl,_,h⟩ | ⟨rfl,_,h⟩
  all_goals rw [h]; rfl

@[simp] theorem held_afterResult (cfg : Config) (r : Option (List (Claim J))) :
    (afterResult cfg r).held = r.getD [] := by
  rcases afterResult_cases cfg r with ⟨rfl,h⟩ | ⟨jobs,rfl,h | ⟨d,_,h⟩⟩
  · rw [h]; rfl
  · rw [h,held_afterDelay]; rfl
  · rw [h]; rfl

@[simp] theorem held_afterReleased (last : Bool) : (afterReleased last : LoopPc J).held = [] := by
  cases last <;> rfl

variable {cfg : Config} {sh sh' : Shared J} {s s' : State J}

theorem Move.of_eq {p q : Places J} (h : q = p) : Move p q := h ▸ .stay p

theorem Move.of_held {held held' : List (Claim J)} (hh : held' = held) (hs : places sh' held = places sh held) :
    Move (places sh held) (places sh' held') := .of_eq (by rw [hh,hs])

theorem loopStep_move {pc pc' : LoopPc J} (h : loopStep cfg sh pc i = some (sh',pc')) :
    Move (places sh pc.held) (places sh' pc'.held) := by
  cases loopStep_cases h with
  | fetchSql jobs => exact .issue (places sh []) jobs rfl
  | append jobs => exact .append (places sh jobs)
  -- the fetch keeps the result it holds
  | fetchNotify r => exact .of_held (held_afterResult cfg r) rfl
  | delayReplace t jobs => exact .of_held (held_afterDelay cfg jobs) rfl
  | releasedKept last | releasedNotify last => exact .of_held (held_afterReleased last) rfl
  | _ => exact .stay _

theorem returnStep_move {who : Caller} {pc : ReturnPc}
    (h : ReturnStepped sh t who pc i sh' th) (held : List (Claim J)) : Move (places sh held) (places sh' held) := by
  cases h with
  | empty _ _ hp hq => exact .of_eq (by simp [places,hp,hq])
  | drain => exact .drain (places sh held)
  | ack => exact .ack (places sh held)
  | _ => exact .stay _

theorem threadStep_move {th' : Thread J} (h : threadStep sh t th i = some (sh',th')) (held : List (Claim J)) :
    Move (places sh held) (places sh' held) := by
  cases threadStep_cases h with
  | popLast c _ hq => exact .hand (places sh held) t c [] hq
  | pop c rest _ hq => exact .hand (places sh held) t c rest hq
  | returning _ _ _ _ _ hr => exact returnStep_move hr held
  | _ => exact .stay _

theorem abandon_places (h : abandon sh th = some sh') (held : List (Claim J)) :
    places sh' held = places sh held := by
  cases abandon_cases h with
  | _ => rfl

def State.places (s : State J) : Places J := LocalQueue.places s.sh s.loop.held

theorem step_move (h : step cfg s a = some s') : Move s.places s'.places := by
  cases step_cases h with
  | loop i sh pc hp => exact loopStep_move hp
  | spawnTimer t mx hl | spawnDelay t jobs hl => exact .of_eq (by simp [State.places,hl,LoopPc.held])
  | start => exact .stay _
  | thread t i sh th hp => exact threadStep_move hp _
  | die t sh ha hp | cancel t sh hr hp => exact .of_eq (abandon_places hp _)

theorem map_seq_number (n : ℕ) (jobs : List J) : (number n jobs).map Claim.seq = List.range' n jobs.length := by
  induction jobs generalizing n with
  | nil => rfl
  | cons j rest ih =>
    simp only [number,List.map_cons,List.length_cons,List.range'_succ]
    rw [ih]

theorem length_number (n : ℕ) (jobs : List J) : (number n jobs).length = jobs.length := by
  rw [← List.length_map Claim.seq,map_seq_number,List.length_range']

/-- The claims issued so far are the claims in the five places, and they are numbered. -/
structure Conserved (p : Places J) : Prop where
  total : (p.issued : Multiset (Claim J)) =
    ↑p.held + ↑p.jobQueue + ↑p.pending + ↑(p.handed.map Prod.snd) + ↑p.acked
  numbered : p.issued.map Claim.seq = List.range p.issued.length

theorem Move.conserved {p q : Places J} (h : Move p q) (hp : Conserved p) : Conserved q := by
  obtain ⟨ht,hn⟩ := hp
  cases h with
  | stay => exact ⟨ht,hn⟩
  | issue jobs hh =>
    refine ⟨?_,?_⟩
    · simp only [← Multiset.coe_add,ht,hh,Multiset.coe_nil]
      abel
    · rw [List.map_append,hn,map_seq_number,List.length_append,length_number,List.range_eq_range',
        List.range_eq_range',← List.range'_append_1,Nat.zero_add]
  | append =>
    refine ⟨?_,hn⟩
    simp only [ht,← Multiset.coe_add,Multiset.coe_nil]
    abel
  | hand t c rest hq =>
    refine ⟨?_,hn⟩
    rw [ht,hq]
    simp only [List.map_append,List.map_cons,List.map_nil,← Multiset.coe_add,← Multiset.cons_coe,
      ← Multiset.singleton_add,Multiset.coe_nil]
    abel
  | drain =>
    refine ⟨?_,hn⟩
    simp only [ht,← Multiset.coe_add,Multiset.coe_nil]
    abel
  | ack =>
    refine ⟨?_,hn⟩
    simp only [ht,← Multiset.coe_add,Multiset.coe_nil]
    abel

theorem Conserved.nodup {p : Places J} (h : Conserved p) : p.issued.Nodup :=
  .of_map Claim.seq (h.numbered ▸ List.nodup_range)

theorem Move.settled {p q : Places J} (h : Move p q) (hc : c ∈ p.pending ++ p.acked) :
    c ∈ q.pending ++ q.acked := by
  rw [List.mem_append] at hc ⊢
  cases h with
  | stay | issue | append | hand => exact hc
  | drain => exact hc.imp_left (List.mem_append_left _)
  | ack =>
    rcases hc with hc | hc
    · exact Or.inr (List.mem_append_right _ hc)
    · exact Or.inr (List.mem_append_left _ hc)

theorem Move.acked {p q : Places J} (h : Move p q) (hc : c ∈ p.acked) : c ∈ q.acked := by
  cases h with
  | stay | issue | append | hand | drain => exact hc
  | ack => exact List.mem_append_left _ hc

abbrev Runs (cfg : Config) : State J → State J → Prop := Reaches (step cfg) fun _ _ => True

theorem Runs.conserved (h : Runs cfg s s') (hs : Conserved s.places) : Conserved s'.places :=
  h.invariant (I := fun s => Conserved s.places) (fun _ _ _ _ he hc => (step_move he).conserved hc) hs

theorem Runs.settled (h : Runs cfg s s') (hc : c ∈ s.sh.pending ++ s.sh.acked) : c ∈ s'.sh.pending ++ s'.sh.acked :=
  h.invariant (I := fun s => c ∈ s.sh.pending ++ s.sh.acked) (fun _ _ _ _ he hm => (step_move he).settled hm) hc

theorem conserved_initial : Conserved (initial : State J).places := ⟨rfl,rfl⟩

inductive Place
  | fetch
  | cache
  | pending
  | consumer (t : Tid)
  | acked
  deriving DecidableEq

def State.claimsAt (s : State J) : Place → List (Claim J)
  | .fetch => s.loop.held
  | .cache => s.sh.jobQueue
  | .pending => s.sh.pending
  | .consumer t => (s.sh.handed.filter fun h => h.1 == t).map Prod.snd
  | .acked => s.sh.acked

theorem mem_consumer : c ∈ s.claimsAt (.consumer t) ↔ (t,c) ∈ s.sh.handed := by
  simp only [State.claimsAt,List.mem_map,List.mem_filter,beq_iff_eq]
  constructor
  · rintro ⟨⟨t',c'⟩,⟨hm,rfl⟩,rfl⟩
    exact hm
  · intro hm
    exact ⟨(t,c),⟨hm,rfl⟩,rfl⟩

/-- The claim that a call of `get_job` has taken out of the cache or has returned. -/
def Thread.claim : Thread J → Option (Claim J)
  | .drained c | .drainedNotify c => some c
  | .finished (.job o) => o
  | _ => none

theorem returnStep_claim {who : Caller} {pc : ReturnPc} (h : ReturnStepped sh t who pc i sh' th) :
    sh'.handed = sh.handed ∧ th.claim = none := by
  cases h with
  | _ => exact ⟨rfl,rfl⟩

theorem threadStep_claim {th' : Thread J} (h : threadStep sh t th i = some (sh',th')) :
    (sh'.handed = sh.handed ∧ th'.claim = th.claim) ∨
    ∃ c, th.claim = none ∧ sh'.handed = sh.handed ++ [(t,c)] ∧ th'.claim = some c := by
  cases threadStep_cases h with
  | popLast c | pop c => exact .inr ⟨c,rfl,rfl,rfl⟩
  | returning _ _ _ _ _ hr => exact .inl (returnStep_claim hr)
  | _ => exact .inl ⟨rfl,rfl⟩

theorem loopStep_handed {pc pc' : LoopPc J} (h : loopStep cfg sh pc i = some (sh',pc')) : sh'.handed = sh.handed := by
  cases loopStep_cases h with
  | _ => rfl

theorem abandon_claim (h : abandon sh th = some sh') : sh'.handed = sh.handed ∧ th.claim = none := by
  cases abandon_cases h with
  | _ => exact ⟨rfl,rfl⟩

/-- What was handed to a call is what the call carries or has returned. -/
def State.Tied (s : State J) : Prop := ∀ t, s.claimsAt (.consumer t) = (s.thr t).claim.toList

theorem State.Tied.update (h : s.Tied) (hh : s'.sh.handed = s.sh.handed) (hthr : s'.thr = Function.update s.thr t th)
    (hc : th.claim = (s.thr t).claim) : s'.Tied := by
  intro u
  have hu := h u
  simp only [State.claimsAt,hh,hthr] at hu ⊢
  by_cases hut : u = t
  · subst hut
    rw [hu,Function.update_self,hc]
  · rw [hu,Function.update_of_ne hut]

theorem State.Tied.hand (h : s.Tied) (hnone : (s.thr t).claim = none) (hh : sh.handed = s.sh.handed ++ [(t,c)])
    (hc : th.claim = some c) : (s.put t (sh,th)).Tied := by
  intro u
  have hu := h u
  simp only [State.claimsAt,State.put,hh,List.filter_append,List.map_append] at hu ⊢
  by_cases hut : u = t
  · subst hut
    rw [hu,hnone,Function.update_self,hc]
    simp
  · have htu : t ≠ u := fun he => hut he.symm
    rw [hu,Function.update_of_ne hut]
    simp [htu]

theorem State.Tied.step (h : s.Tied) (hstep : step cfg s a = some s') : s'.Tied := by
  cases step_cases hstep with
  | loop i sh pc hp =>
    intro t
    have ht := h t
    simp only [State.claimsAt] at ht ⊢
    rwa [loopStep_handed hp]
  | spawnTimer t _ _ hidle | spawnDelay t _ _ hidle => exact h.update rfl rfl (by rw [hidle]; rfl)
  | start t call hidle => exact h.update rfl rfl (by rw [hidle]; cases call <;> rfl)
  | thread t i sh th hp =>
    rcases threadStep_claim hp with ⟨hh,hc⟩ | ⟨c,hnone,hh,hc⟩
    · exact h.update hh rfl hc
    · exact h.hand hnone hh hc
  | die t sh ha hp | cancel t sh hr hp => exact h.update (abandon_claim hp).1 rfl (abandon_claim hp).2.symm

theorem Runs.tied (h : Runs cfg s s') (hs : s.Tied) : s'.Tied :=
  h.invariant (I := State.Tied) (fun _ _ _ _ he ht => ht.step he) hs

def State.everywhere (s : State J) : List (Claim J) :=
  s.loop.held ++ (s.sh.jobQueue ++ (s.sh.pending ++ (s.sh.handed.map Prod.snd ++ s.sh.acked)))

theorem Conserved.perm (h : Conserved s.places) : s.sh.issued.Perm s.everywhere := by
  rw [← Multiset.coe_eq_coe,State.everywhere]
  simp only [← Multiset.coe_add,← add_assoc]
  exact h.total

theorem mem_everywhere : c ∈ s.everywhere ↔ ∃ p, c ∈ s.claimsAt p := by
  simp only [State.everywhere,List.mem_append,List.mem_map]
  constructor
  · rintro (h | h | h | ⟨⟨t,_⟩,h,rfl⟩ | h)
    · exact ⟨.fetch,h⟩
    · exact ⟨.cache,h⟩
    · exact ⟨.pending,h⟩
    · exact ⟨.consumer t,mem_consumer.mpr h⟩
    · exact ⟨.acked,h⟩
  · rintro ⟨p,h⟩
    cases p with
    | fetch => exact Or.inl h
    | cache => exact Or.inr (Or.inl h)
    | pending => exact Or.inr (Or.inr (Or.inl h))
    | consumer t => exact Or.inr (Or.inr (Or.inr (Or.inl ⟨(t,c),mem_consumer.mp h,rfl⟩)))
    | acked => exact Or.inr (Or.inr (Or.inr (Or.inr h)))

def Place.rank : Place → ℕ
  | .fetch => 0
  | .cache => 1
  | .pending => 2
  | .consumer _ => 3
  | .acked => 4

theorem not_shared (hn : s.everywhere.Nodup) {p q : Place} (hp : c ∈ s.claimsAt p)
    (hq : c ∈ s.claimsAt q) : ¬p.rank < q.rank := by
  simp only [State.everywhere,List.nodup_append,List.mem_append,List.mem_map] at hn
  obtain ⟨_,⟨_,⟨_,⟨_,_,hha⟩,hpe⟩,hca⟩,hfe⟩ := hn
  have hc : ∀ t, c ∈ s.claimsAt (.consumer t) → ∃ h ∈ s.sh.handed, h.2 = c :=
    fun t h => ⟨(t,c),mem_consumer.mp h,rfl⟩
  intro hlt
  cases p <;> cases q <;> simp only [Place.rank] at hlt <;> try omega
  case fetch.cache => exact hfe c hp c (Or.inl hq) rfl
  case fetch.pending => exact hfe c hp c (Or.inr (Or.inl hq)) rfl
  case fetch.consumer t => exact hfe c hp c (Or.inr (Or.inr (Or.inl (hc t hq)))) rfl
  case fetch.acked => exact hfe c hp c (Or.inr (Or.inr (Or.inr hq))) rfl
  case cache.pending => exact hca c hp c (Or.inl hq) rfl
  case cache.consumer t => exact hca c hp c (Or.inr (Or.inl (hc t hq))) rfl
  case cache.acked => exact hca c hp c (Or.inr (Or.inr hq)) rfl
  case pending.consumer t => exact hpe c hp c (Or.inl (hc t hq)) rfl
  case pending.acked => exact hpe c hp c (Or.inr hq) rfl
  case consumer.acked t => exact hha c (hc t hp) c hq rfl

theorem place_unique (hn : s.everywhere.Nodup) {p q : Place} (hp : c ∈ s.claimsAt p)
    (hq : c ∈ s.claimsAt q) : p = q := by
  have hr : p.rank = q.rank := by
    have h := not_shared hn hp hq
    have h' := not_shared hn hq hp
    omega
  cases p <;> cases q <;> simp only [Place.rank] at hr <;> try omega
  all_goals try rfl
  case consumer.consumer t t' =>
    have hh : (s.sh.handed.map Prod.snd).Nodup := by
      simp only [State.everywhere,List.nodup_append] at hn
      exact hn.2.1.2.1.2.1.1
    have he := List.inj_on_of_nodup_map hh (mem_consumer.mp hp) (mem_consumer.mp hq) rfl
    exact congrArg (fun h => Place.consumer h.1) he

theorem nodup_claimsAt (hn : s.everywhere.Nodup) (p : Place) : (s.claimsAt p).Nodup := by
  simp only [State.everywhere,List.nodup_append] at hn
  cases p with
  | fetch => exact hn.1
  | cache => exact hn.2.1.1
  | pending => exact hn.2.1.2.1.1
  | consumer t => exact hn.2.1.2.1.2.1.1.sublist (List.filter_sublist.map _)
  | acked => exact hn.2.1.2.1.2.1.2.1

/-- Each claim that was ever issued is in exactly one place and occurs there once, and one that is pending is
never with a consumer later on. -/
theorem claim_conserved (h : Runs cfg initial s) :
    (∀ c, (∃ p, c ∈ s.claimsAt p) ↔ c ∈ s.sh.issued) ∧
    (∀ c ∈ s.sh.issued, ∃! p, c ∈ s.claimsAt p) ∧
    (∀ p, (s.claimsAt p).Nodup) ∧
    (∀ t, s.claimsAt (.consumer t) = (s.thr t).claim.toList) ∧
    ∀ c ∈ s.sh.pending, ∀ s', Runs cfg s s' → ∀ t, c ∉ s'.claimsAt (.consumer t) := by
  have hc := h.conserved conserved_initial
  have hn : s.everywhere.Nodup := hc.perm.nodup_iff.mp hc.nodup
  have hm : ∀ c, (∃ p, c ∈ s.claimsAt p) ↔ c ∈ s.sh.issued := fun c =>
    mem_everywhere.symm.trans hc.perm.mem_iff.symm
  refine ⟨hm,?_,nodup_claimsAt hn,h.tied fun _ => rfl,?_⟩
  · intro c hi
    obtain ⟨p,hp⟩ := (hm c).mpr hi
    exact ⟨p,hp,fun q hq => place_unique hn hq hp⟩
  · intro c hp s' hs' t ht
    have hc' := Runs.conserved (h.trans hs') conserved_initial
    have hn' : s'.everywhere.Nodup := hc'.perm.nodup_iff.mp hc'.nodup
    rcases List.mem_append.mp (hs'.settled (List.mem_append_left _ hp)) with h' | h'
    · cases place_unique hn' (p := .pending) h' ht
    · cases place_unique hn' (p := .acked) h' ht

def Action.tid : Action J → Option Tid
  | .loop _ => none
  | .spawnTimer t | .spawnDelay t | .start t _ | .thread t _ | .die t | .cancel t => some t

theorem step_thr (h : step cfg s a = some s') (ht : a.tid ≠ some t) : s'.thr t = s.thr t := by
  have hne : ∀ u, some u ≠ some t → t ≠ u := fun u hu he => hu (congrArg some he.symm)
  cases step_cases h with
  | loop => rfl
  | spawnTimer u | spawnDelay u | start u | thread u | die u | cancel u => exact Function.update_of_ne (hne u ht) _ _

theorem exec_thr [∀ s a, Decidable (ok s a)]
    (h : exec (step cfg) ok s labels = some s') (ht : ∀ a ∈ labels, a.tid ≠ some t) : s'.thr t = s.thr t := by
  induction labels generalizing s with
  | nil =>
    cases h
    rfl
  | cons a rest ih =>
    obtain ⟨_,h⟩ := Option.ite_none_right_eq_some.mp h
    obtain ⟨u,hu,hr⟩ := Option.bind_eq_some_iff.mp h
    rw [ih hr fun b hb => ht b (List.mem_cons_of_mem a hb)]
    exact step_thr hu (ht a List.mem_cons_self)

theorem exec_forall [∀ s a, Decidable (ok s a)]
    {p : Thread J → Bool} {n : ℕ} (h : exec (step cfg) ok initial labels = some s)
    (hl : ∀ a ∈ labels, a.tid.all (· < n) = true) (hn : (List.range n).all (fun t => p (s.thr t)) = true)
    (hi : p .idle = true) (t : Tid) : p (s.thr t) = true := by
  by_cases ht : t < n
  · exact List.all_eq_true.mp hn t (List.mem_range.mpr ht)
  · rw [exec_thr h fun a ha he => ht ?_]
    · exact hi
    · simpa [he] using hl a ha

def loopTicks (n : ℕ) : List (Action J) := List.replicate n (.loop .tick)
def threadTicks (t : Tid) (n : ℕ) : List (Action J) := List.replicate n (.thread t .tick)

def firstFetch (jobs : List J) : List (Action J) :=
  loopTicks 4 ++ [Action.loop (.boundary true)] ++ loopTicks 4 ++ [Action.loop (.batch (some jobs))]

/-- Two jobs are fetched, one goes to consumer 2, the other back with release 3. -/
def returnedRun : List (Action ℕ) :=
  firstFetch [7,8] ++ loopTicks 6 ++ [Action.spawnTimer 1] ++ loopTicks 1 ++
  [Action.start 2 (.getJob false)] ++ threadTicks 2 5 ++
  [Action.start 3 .release] ++ threadTicks 3 6 ++ loopTicks 4 ++ threadTicks 3 7 ++
  [Action.thread 3 .commit,.thread 3 (.response true)] ++ threadTicks 3 1

theorem returned_run_conserved : ∃ s : State ℕ, Runs {} initial s ∧
    (s.sh.issued = [⟨0,7⟩,⟨1,8⟩] ∧ s.sh.handed = [(2,⟨0,7⟩)] ∧ s.sh.acked = [⟨1,8⟩]) ∧
    (∀ c, (∃ p, c ∈ s.claimsAt p) ↔ c ∈ s.sh.issued) ∧
    (∀ c ∈ s.sh.issued, ∃! p, c ∈ s.claimsAt p) ∧
    (∀ p, (s.claimsAt p).Nodup) ∧
    (∀ t, s.claimsAt (.consumer t) = (s.thr t).claim.toList) ∧
    ∀ c ∈ s.sh.pending, ∀ s', Runs {} s s' → ∀ t, c ∉ s'.claimsAt (.consumer t) := by
  obtain ⟨s,hr,hf⟩ : ∃ s : State ℕ, Runs {} initial s ∧
      s.sh.issued = [⟨0,7⟩,⟨1,8⟩] ∧ s.sh.handed = [(2,⟨0,7⟩)] ∧ s.sh.acked = [⟨1,8⟩] :=
    exists_reaches_of_exec returnedRun (by decide)
  exact ⟨s,hr,hf,claim_conserved hr⟩

end GraphileWorker.LocalQueue

import GraphileWorker.Database.FlagFilter
import GraphileWorker.Foundation.SqlPieces
import GraphileWorker.Migrations.SchemaName

/-! # The SQL text of a claim

Both claim queries are put together from fixed texts, the schema's name and parameters `$k`.
The text is kept per thread by everything it depends on but the bound values.
-/
namespace GraphileWorker.Database
open Foundation.Sql Migrations

inductive ClaimRole
  | workerId
  | taskIds
  | batchSize
  | forbidden
  | accepted
  | allowed
  | now
  deriving DecidableEq

inductive DbValue
  | text (s : String)
  | i32Array (values : List TaskId)
  | i32 (value : ℤ)
  | textArray (values : List String)
  | timestampTz (t : Time)

abbrev ClaimPiece := Piece ClaimRole

def fixed (text : String) : ClaimPiece := .text text.toList

structure FlagFilterShape where
  forbidden : Bool
  accepted : Bool
  allowlist : Bool
  deriving DecidableEq

namespace JobFlagFilter
variable (filter : JobFlagFilter)

def shape : FlagFilterShape where
  forbidden := !filter.forbidden.isEmpty
  accepted := !filter.accepted.isEmpty
  allowlist := filter.allowed.isSome

def parameterCount : ℕ :=
  filter.shape.forbidden.toNat + filter.shape.accepted.toNat + filter.shape.allowlist.toNat

def bind : List DbValue :=
  (if filter.forbidden.isEmpty then [] else [.textArray filter.forbidden]) ++
  (if filter.accepted.isEmpty then [] else [.textArray filter.accepted]) ++
  match filter.allowed with
  | none => []
  | some allowed => [.textArray allowed]

end JobFlagFilter

namespace ClaimText

def forbiddenHead : String := "and ((jobs.flags ?| "
def forbiddenTail : String := "::text[]) is not true)"
def acceptedHead : String := " and (jobs.flags ?| "
def acceptedTail : String := "::text[])"
def allowedHead : String :=
  " and (case when jobs.flags is null then true when jsonb_typeof(jobs.flags) = 'object' then (jobs.flags - "
def allowedTail : String := "::text[]) = '\x7b\x7d'::jsonb else false end)"

def clock : String := "now()"
def clockCast : String := "::timestamptz"

def queueHead : String := "
            and (
                jobs.job_queue_id is null
                or
                jobs.job_queue_id in (
                    select id
                    from "
def queueTail : String := "._private_job_queues as job_queues
                    where job_queues.is_available = true
                    for update
                    skip locked
                )
            )
        "

def updateQueueHead : String := ",
            q as (
                update "
def updateQueueLockedBy : String := "._private_job_queues as job_queues
                    set
                        locked_by = "
def updateQueueLockedAt : String := ",
                        locked_at = "
def updateQueueTail : String := "
                from j
                where job_queues.id = j.job_queue_id
            )
        "

def getJobHead : String := "with j as (
    select jobs.job_queue_id, jobs.priority, jobs.run_at, jobs.id
        from "
def batchHead : String := "with j_raw as (
    select jobs.job_queue_id, jobs.priority, jobs.run_at, jobs.id
        from "
def where_ : String := "._private_jobs as jobs
        where jobs.is_available = true
        and run_at <= "
def whereTask : String := "
        and task_id = any("
def whereQueue : String := "::int[])
        "
def whereFlags : String := "
        "
def getJobLimit : String := "
        order by priority asc, run_at asc
        limit 1
        for update
        skip locked
    ) "
def batchOrder : String := "
        order by priority asc, run_at asc
        limit "
def batchDistinct : String := "::int
        for update
        skip locked
    ), j as (
        select distinct on (job_queue_id, case when job_queue_id is null then id end)
            job_queue_id, priority, run_at, id
        from j_raw
        order by job_queue_id, case when job_queue_id is null then id end,
            priority asc, run_at asc, id asc
    ) "
def updateHead : String := "
        update "
def updateLockedBy : String := "._private_jobs as jobs
            set
                attempts = jobs.attempts + 1,
                locked_by = "
def updateLockedAt : String := "::text,
                locked_at = "
def updateTail : String := "
            from j
            where jobs.id = j.id
            returning *
"

end ClaimText

open ClaimText

/-- `clause`, from the first parameter of the filter. -/
def JobFlagFilter.clause (filter : JobFlagFilter) (parameter : ℕ) : List ClaimPiece :=
  let forbidden : List ClaimPiece × ℕ :=
    if filter.forbidden.isEmpty then ([],parameter)
    else ([fixed forbiddenHead,.param parameter .forbidden,fixed forbiddenTail],parameter + 1)
  let accepted : List ClaimPiece × ℕ :=
    if filter.accepted.isEmpty then ([],forbidden.2)
    else ([fixed acceptedHead,.param forbidden.2 .accepted,fixed acceptedTail],forbidden.2 + 1)
  let allowed : List ClaimPiece :=
    if filter.allowed.isSome then [fixed allowedHead,.param accepted.2 .allowed,fixed allowedTail] else []
  forbidden.1 ++ accepted.1 ++ allowed

def getNowClause : Option ℕ → List ClaimPiece
  | some p => [.param p .now,fixed clockCast]
  | none => [fixed clock]

def getQueueClause : List ClaimPiece := [fixed queueHead,.name,fixed queueTail]

def getUpdateQueueClause (workerIdParam : ℕ) (nowParam : Option ℕ) : List ClaimPiece :=
  [fixed updateQueueHead,.name,fixed updateQueueLockedBy,.param workerIdParam .workerId,
    fixed updateQueueLockedAt] ++ getNowClause nowParam ++ [fixed updateQueueTail]

/-- The part that updates the claimed jobs, the same in both queries. -/
def updateJobsClause (nowParam : Option ℕ) : List ClaimPiece :=
  [fixed updateHead,.name,fixed updateLockedBy,.param 1 .workerId,fixed updateLockedAt] ++
    getNowClause nowParam ++ [fixed updateTail]

def getJobSql (filter : JobFlagFilter) (hasNow : Bool) : List ClaimPiece :=
  let nowParam := if hasNow then some (3 + filter.parameterCount) else none
  [fixed getJobHead,.name,fixed where_] ++ getNowClause nowParam ++
    [fixed whereTask,.param 2 .taskIds,fixed whereQueue] ++ getQueueClause ++ [fixed whereFlags] ++
    filter.clause 3 ++ [fixed getJobLimit] ++ getUpdateQueueClause 1 nowParam ++ updateJobsClause nowParam

def batchGetJobsSql (filter : JobFlagFilter) (hasNow : Bool) : List ClaimPiece :=
  let nowParam := if hasNow then some (4 + filter.parameterCount) else none
  [fixed batchHead,.name,fixed where_] ++ getNowClause nowParam ++
    [fixed whereTask,.param 2 .taskIds,fixed whereQueue] ++ getQueueClause ++ [fixed whereFlags] ++
    filter.clause 4 ++ [fixed batchOrder,.param 3 .batchSize,fixed batchDistinct] ++
    getUpdateQueueClause 1 nowParam ++ updateJobsClause nowParam

/-- A call of one of the two functions; without a batch size it is `get_job_with_filter`. -/
structure ClaimCall where
  schema : List Char
  workerId : WorkerId
  taskIds : List TaskId
  filter : JobFlagFilter
  batchSize : Option ℤ
  now : Option Time

namespace ClaimCall
variable (call : ClaimCall)

def sql : List ClaimPiece :=
  if call.batchSize.isSome then batchGetJobsSql call.filter call.now.isSome
  else getJobSql call.filter call.now.isSome

def params : List DbValue :=
  [.text call.workerId,.i32Array call.taskIds] ++
    (match call.batchSize with
    | none => []
    | some size => [.i32 size]) ++ call.filter.bind ++
    match call.now with
    | none => []
    | some ts => [.timestampTz ts]

/-- The value that a place of the text is written for, if the call has it. -/
def value : ClaimRole → Option DbValue
  | .workerId => some (.text call.workerId)
  | .taskIds => some (.i32Array call.taskIds)
  | .batchSize => call.batchSize.map .i32
  | .forbidden => some (.textArray call.filter.forbidden)
  | .accepted => some (.textArray call.filter.accepted)
  | .allowed => call.filter.allowed.map .textArray
  | .now => call.now.map .timestampTz

/-- The places of the parameters in the text, with what each stands for. -/
def places : List (ℕ × ClaimRole) := call.sql.filterMap Piece.place

def text : List Char := render (Schema.new call.schema).escaped call.sql

end ClaimCall

structure QueryKey where
  schema : List Char
  flags : FlagFilterShape
  localTime : Bool
  batch : Bool
  deriving DecidableEq

def ClaimCall.key (call : ClaimCall) : QueryKey where
  schema := (Schema.new call.schema).escaped
  flags := call.filter.shape
  localTime := call.now.isSome
  batch := call.batchSize.isSome

abbrev QueryCache := List (QueryKey × List Char)

def cacheCapacity : ℕ := 128

def fetchQuery (queries : QueryCache) (key : QueryKey) (construct : List Char) : List Char × QueryCache :=
  match queries.lookup key with
  | some sql => (sql,queries)
  | none => (construct,(key,construct) :: if queries.length = cacheCapacity then [] else queries)

def cacheAfter (calls : List ClaimCall) : QueryCache :=
  calls.foldl (fun queries call => (fetchQuery queries call.key call.text).2) []

/-- Every fixed text, with its first character and what it leaves for the next piece. -/
def claimTexts : List (String × Char × Before) :=
  [(forbiddenHead,'a',.blank),(forbiddenTail,':',.other),(acceptedHead,' ',.blank),(acceptedTail,':',.other),
   (allowedHead,' ',.blank),(allowedTail,':',.other),(clock,'n',.other),(clockCast,':',.word),
   (queueHead,'\n',.blank),(queueTail,'.',.blank),(updateQueueHead,',',.blank),(updateQueueLockedBy,'.',.blank),
   (updateQueueLockedAt,',',.blank),(updateQueueTail,'\n',.blank),(getJobHead,'w',.blank),(batchHead,'w',.blank),
   (where_,'.',.blank),(whereTask,'\n',.other),(whereQueue,':',.blank),(whereFlags,'\n',.blank),
   (getJobLimit,'\n',.blank),(batchOrder,'\n',.blank),(batchDistinct,':',.blank),(updateHead,'\n',.blank),
   (updateLockedBy,'.',.blank),(updateLockedAt,':',.blank),(updateTail,'\n',.blank)]

def readsAs (chars : List Char) (first : Char) (next : Before) : Bool :=
  chars.head? == some first && afterText chars == some next && separate (textTokens chars)

theorem claimTexts_read : ∀ e ∈ claimTexts, readsAs e.1.toList e.2.1 e.2.2 = true := by
  have hspelled : ∃ spelling, Spelled (claimTexts.map Prod.fst) spelling ∧
      ((spelling.zip (claimTexts.map Prod.snd)).all fun e => readsAs e.1 e.2.1 e.2.2) = true :=
    ⟨_,by repeat' constructor,by decide +kernel⟩
  obtain ⟨spelling,hs,hall⟩ := hspelled
  rw [← hs.eq_map,List.map_map,List.zip_map',List.all_map,List.all_eq_true] at hall
  exact hall

variable {text : String} {b n : Before} {rest : List ClaimPiece} {c : Char} {k : ℕ} {role : ClaimRole} {p : Option ℕ}
  {call : ClaimCall}

theorem passes_fixed (h : (text,c,n) ∈ claimTexts) (hb : b.admits c = true) :
    passes b (fixed text :: rest) = passes n rest := by
  have hreads := claimTexts_read _ h
  simp only [readsAs,Bool.and_eq_true,beq_iff_eq] at hreads
  simp [passes,fixed,passPiece,hreads.1,hb]

theorem passes_name (h : (text,'.',n) ∈ claimTexts) :
    passes .blank (.name :: fixed text :: rest) = passes n rest := by
  have hname : passes .blank (.name :: fixed text :: rest) = passes .name (fixed text :: rest) := rfl
  rw [hname,passes_fixed h rfl]

theorem passes_param (h : (text,c,n) ∈ claimTexts)
    (hb : b = .blank ∨ b = .other)
    (hc : Before.param.admits c = true) :
    passes b (.param k role :: fixed text :: rest) = passes n rest := by
  have hparam : passes b (.param k role :: fixed text :: rest) = passes .param (fixed text :: rest) := by
    rw [passes,passPiece,if_pos hb]
    rfl
  rw [hparam,passes_fixed h hc]

theorem passes_clock (h : (text,'\n',n) ∈ claimTexts) :
    passes .blank (getNowClause p ++ fixed text :: rest) = passes n rest := by
  cases p with
  | none => exact (passes_fixed (by repeat' constructor) rfl).trans (passes_fixed h rfl)
  | some p => exact (passes_param (by repeat' constructor) (.inl rfl) rfl).trans (passes_fixed h rfl)

theorem passes_forbidden :
    passes .blank (fixed forbiddenHead :: .param k .forbidden :: fixed forbiddenTail :: rest) = passes .other rest := by
  rw [passes_fixed (by repeat' constructor) rfl,passes_param (by repeat' constructor) (.inl rfl) rfl]

theorem passes_accepted (hb : b.admits ' ' = true) :
    passes b (fixed acceptedHead :: .param k .accepted :: fixed acceptedTail :: rest) = passes .other rest := by
  rw [passes_fixed (by repeat' constructor) hb,passes_param (by repeat' constructor) (.inl rfl) rfl]

theorem passes_allowed (hb : b.admits ' ' = true) :
    passes b (fixed allowedHead :: .param k .allowed :: fixed allowedTail :: rest) = passes .other rest := by
  rw [passes_fixed (by repeat' constructor) hb,passes_param (by repeat' constructor) (.inl rfl) rfl]

theorem passes_clause {filter : JobFlagFilter} (h : (text,'\n',n) ∈ claimTexts) :
    passes .blank (filter.clause k ++ fixed text :: rest) = passes n rest := by
  have hend : ∀ b : Before, b.admits '\n' = true → passes b (fixed text :: rest) = passes n rest :=
    fun b hb => passes_fixed h hb
  unfold JobFlagFilter.clause
  cases hf : filter.forbidden.isEmpty <;> cases ha : filter.accepted.isEmpty <;>
    cases hl : filter.allowed.isSome <;>
    simp [passes_forbidden,passes_accepted,passes_allowed,hend,Before.admits]

theorem passes_getUpdateQueueClause : passes .blank (getUpdateQueueClause k p ++ rest) = passes .blank rest := by
  unfold getUpdateQueueClause
  simp only [List.append_assoc,List.cons_append,List.nil_append]
  rw [passes_fixed (by repeat' constructor) rfl,passes_name (by repeat' constructor),passes_param (by repeat' constructor) (.inl rfl) rfl,
    passes_clock (by repeat' constructor)]

theorem passes_updateJobsClause : passes .blank (updateJobsClause p) = some .blank := by
  unfold updateJobsClause
  simp only [List.cons_append,List.nil_append]
  rw [passes_fixed (by repeat' constructor) rfl,passes_name (by repeat' constructor),passes_param (by repeat' constructor) (.inl rfl) rfl,
    passes_clock (by repeat' constructor)]
  rfl

theorem passes_where :
    passes .blank (.name :: fixed where_ :: (getNowClause p ++ fixed whereTask :: .param 2 .taskIds ::
      fixed whereQueue :: (getQueueClause ++ fixed whereFlags :: rest))) = passes .blank rest := by
  unfold getQueueClause
  simp only [List.cons_append,List.nil_append]
  rw [passes_name (by repeat' constructor),passes_clock (by repeat' constructor),passes_param (by repeat' constructor) (.inr rfl) rfl,
    passes_fixed (by repeat' constructor) rfl,passes_name (by repeat' constructor),passes_fixed (by repeat' constructor) rfl]

theorem passes_sql (call : ClaimCall) : passes .blank call.sql = some .blank := by
  unfold ClaimCall.sql
  split
  · unfold batchGetJobsSql
    simp only [List.append_assoc,List.cons_append,List.nil_append]
    rw [passes_fixed (by repeat' constructor) rfl,passes_where,passes_clause (by repeat' constructor),passes_param (by repeat' constructor) (.inl rfl) rfl,
      passes_getUpdateQueueClause,passes_updateJobsClause]
  · unfold getJobSql
    simp only [List.append_assoc,List.cons_append,List.nil_append]
    rw [passes_fixed (by repeat' constructor) rfl,passes_where,passes_clause (by repeat' constructor),passes_getUpdateQueueClause,
      passes_updateJobsClause]

def ClaimCall.firstFilter (call : ClaimCall) : ℕ := if call.batchSize.isSome then 4 else 3

/-- A fixed text has no parameter of its own, and a parameter has the number of the value it is
written for. -/
def ClaimCall.Proper (call : ClaimCall) : ClaimPiece → Prop
  | .text lit => separate (textTokens lit) = true
  | .name => True
  | .param k role => 1 ≤ k ∧ ∃ v, call.value role = some v ∧ call.params[k - 1]? = some v

section Parameters
variable {call : ClaimCall} {q : Option ℕ} {head tail : String} {c c' : Char} {n n' : Before}

theorem proper_fixed {text : String} (h : (text,c,n) ∈ claimTexts) :
    call.Proper (fixed text) := by
  have hreads := claimTexts_read _ h
  simp only [readsAs,Bool.and_eq_true] at hreads
  exact hreads.2

theorem proper_between {p : ClaimPiece} (hp : call.Proper p)
    (hhead : (head,c,n) ∈ claimTexts)
    (htail : (tail,c',n') ∈ claimTexts) :
    ∀ q ∈ [fixed head,p,fixed tail], call.Proper q := by
  intro q hq
  simp only [List.mem_cons,List.not_mem_nil,or_false] at hq
  obtain rfl | rfl | rfl := hq
  · exact proper_fixed hhead
  · exact hp
  · exact proper_fixed htail

variable (call) in
theorem getElem?_params (i : ℕ) : call.params[call.firstFilter - 1 + i]? = (call.filter.bind ++
    match call.now with
    | none => []
    | some ts => [.timestampTz ts])[i]? := by
  unfold ClaimCall.params ClaimCall.firstFilter
  rw [List.append_assoc]
  cases call.batchSize with
  | none =>
    rw [List.getElem?_append_right (by simp)]
    simp
  | some size =>
    rw [List.getElem?_append_right (by simp)]
    simp

theorem length_bind (filter : JobFlagFilter) : filter.bind.length = filter.parameterCount := by
  unfold JobFlagFilter.bind JobFlagFilter.parameterCount JobFlagFilter.shape
  cases filter.forbidden.isEmpty <;> cases filter.accepted.isEmpty <;> cases filter.allowed <;> simp

variable (call) in
theorem firstFilter_pos : 1 ≤ call.firstFilter := by
  unfold ClaimCall.firstFilter
  split <;> omega

theorem proper_of_index {i : ℕ} {role : ClaimRole} {v : DbValue} (hv : call.value role = some v)
    (hi : (call.filter.bind ++
      match call.now with
      | none => []
      | some ts => [.timestampTz ts])[i]? = some v) : call.Proper (.param (call.firstFilter + i) role) := by
  have hpos := firstFilter_pos call
  refine ⟨by omega,v,hv,?_⟩
  rw [show call.firstFilter + i - 1 = call.firstFilter - 1 + i by omega,getElem?_params,hi]

theorem proper_filter {i : ℕ} {role : ClaimRole} {v : DbValue} (hv : call.value role = some v)
    (hi : call.filter.bind[i]? = some v) (hhead : (head,c,n) ∈ claimTexts)
    (htail : (tail,c',n') ∈ claimTexts) :
    ∀ p ∈ [fixed head,.param (call.firstFilter + i) role,fixed tail], call.Proper p :=
  proper_between (proper_of_index hv (List.getElem?_append_left (List.getElem?_eq_some_iff.mp hi).1 ▸ hi)) hhead htail

variable (call) in
theorem proper_now : ∀ p ∈ getNowClause
    (if call.now.isSome then some (call.firstFilter + call.filter.parameterCount) else none), call.Proper p := by
  cases hn : call.now with
  | none => exact List.forall_mem_singleton.mpr (proper_fixed (by repeat' constructor))
  | some ts =>
    refine List.forall_mem_cons.mpr ⟨proper_of_index (v := .timestampTz ts) (by simp [ClaimCall.value,hn]) ?_,
      List.forall_mem_singleton.mpr (proper_fixed (by repeat' constructor))⟩
    rw [hn,List.getElem?_append_right (by rw [length_bind]),length_bind]
    simp

variable (call) in
theorem proper_clause : ∀ p ∈ call.filter.clause call.firstFilter, call.Proper p := by
  have hallowed (i : ℕ) (allowed : List String) (ha : call.filter.allowed = some allowed)
      (hi : call.filter.bind[i]? = some (.textArray allowed)) :
      ∀ p ∈ [fixed allowedHead,.param (call.firstFilter + i) .allowed,fixed allowedTail], call.Proper p :=
    proper_filter (by simp [ClaimCall.value,ha]) hi (by repeat' constructor) (by repeat' constructor)
  unfold JobFlagFilter.bind at hallowed
  unfold JobFlagFilter.clause
  rw [List.forall_mem_append,List.forall_mem_append]
  refine ⟨⟨?_,?_⟩,?_⟩
  · cases hf : call.filter.forbidden.isEmpty with
    | true => simp
    | false => exact proper_filter (i := 0) rfl (by simp [JobFlagFilter.bind,hf]) (by repeat' constructor) (by repeat' constructor)
  · cases hf : call.filter.forbidden.isEmpty <;> cases ha : call.filter.accepted.isEmpty
    · exact proper_filter (i := 1) rfl (by simp [JobFlagFilter.bind,hf,ha]) (by repeat' constructor) (by repeat' constructor)
    · simp
    · exact proper_filter (i := 0) rfl (by simp [JobFlagFilter.bind,hf,ha]) (by repeat' constructor) (by repeat' constructor)
    · simp
  · cases hl : call.filter.allowed with
    | none => simp
    | some allowed =>
      cases hf : call.filter.forbidden.isEmpty <;> cases ha : call.filter.accepted.isEmpty
      · exact hallowed 2 allowed hl (by simp [hf,ha,hl])
      · exact hallowed 1 allowed hl (by simp [hf,ha,hl])
      · exact hallowed 1 allowed hl (by simp [hf,ha,hl])
      · exact hallowed 0 allowed hl (by simp [hf,ha,hl])

theorem proper_size (h : call.batchSize.isSome = true) : call.Proper (.param 3 .batchSize) := by
  obtain ⟨size,hsize⟩ := Option.isSome_iff_exists.mp h
  exact ⟨by omega,.i32 size,by simp [ClaimCall.value,hsize],by simp [ClaimCall.params,hsize]⟩

section Clock
variable (hnow : ∀ p ∈ getNowClause q, call.Proper p)
include hnow

theorem proper_update {a b : String} {d d' : Char} {m m' : Before}
    (hhead : (head,c,n) ∈ claimTexts) (ha : (a,c',n') ∈ claimTexts)
    (hb : (b,d,m) ∈ claimTexts) (htail : (tail,d',m') ∈ claimTexts) :
    ∀ p ∈ [fixed head,.name,fixed a,.param 1 .workerId,fixed b] ++ getNowClause q ++ [fixed tail], call.Proper p := by
  have hfirst : ∀ p ∈ [fixed head,.name,fixed a] ++ [.param 1 .workerId,fixed b], call.Proper p :=
    List.forall_mem_append.mpr ⟨proper_between trivial hhead ha,
      List.forall_mem_cons.mpr ⟨⟨le_rfl,_,rfl,rfl⟩,List.forall_mem_singleton.mpr (proper_fixed hb)⟩⟩
  exact List.forall_mem_append.mpr ⟨List.forall_mem_append.mpr ⟨hfirst,hnow⟩,
    List.forall_mem_singleton.mpr (proper_fixed htail)⟩

theorem proper_query {clause limit : List ClaimPiece} (hclause : ∀ p ∈ clause, call.Proper p)
    (hlimit : ∀ p ∈ limit, call.Proper p) (hhead : (head,c,n) ∈ claimTexts) :
    ∀ p ∈ [fixed head,.name,fixed where_] ++ getNowClause q ++ [fixed whereTask,.param 2 .taskIds,fixed whereQueue] ++
      getQueueClause ++ [fixed whereFlags] ++ clause ++ limit ++ getUpdateQueueClause 1 q ++ updateJobsClause q,
      call.Proper p := by
  simp only [List.forall_mem_append]
  have hfrom : ∀ p ∈ [fixed head,.name,fixed where_], call.Proper p := proper_between trivial hhead (by repeat' constructor)
  have htask : ∀ p ∈ [fixed whereTask,.param 2 .taskIds,fixed whereQueue], call.Proper p :=
    proper_between ⟨by omega,_,rfl,rfl⟩ (by repeat' constructor) (by repeat' constructor)
  have hqueue : ∀ p ∈ getQueueClause, call.Proper p := proper_between trivial (by repeat' constructor) (by repeat' constructor)
  have hflags : ∀ p ∈ [fixed whereFlags], call.Proper p := List.forall_mem_singleton.mpr (proper_fixed (by repeat' constructor))
  exact ⟨⟨⟨⟨⟨⟨⟨⟨hfrom,hnow⟩,htask⟩,hqueue⟩,hflags⟩,hclause⟩,hlimit⟩,
    proper_update hnow (by repeat' constructor) (by repeat' constructor) (by repeat' constructor) (by repeat' constructor)⟩,
    proper_update hnow (by repeat' constructor) (by repeat' constructor) (by repeat' constructor) (by repeat' constructor)⟩

end Clock

variable (call) in
theorem proper_sql : ∀ p ∈ call.sql, call.Proper p := by
  have hnow := proper_now call
  have hclause := proper_clause call
  unfold ClaimCall.firstFilter at hnow hclause
  unfold ClaimCall.sql
  split
  · next hsize =>
    rw [if_pos hsize] at hnow hclause
    have hlimit : ∀ p ∈ [fixed batchOrder,.param 3 .batchSize,fixed batchDistinct], call.Proper p :=
      proper_between (proper_size hsize) (by repeat' constructor) (by repeat' constructor)
    exact proper_query hnow hclause hlimit (by repeat' constructor)
  · next hsize =>
    rw [if_neg hsize] at hnow hclause
    have hlimit : ∀ p ∈ [fixed getJobLimit], call.Proper p := List.forall_mem_singleton.mpr (proper_fixed (by repeat' constructor))
    exact proper_query hnow hclause hlimit (by repeat' constructor)

end Parameters

theorem clause_eq_of_shape {filter filter' : JobFlagFilter} (h : filter.shape = filter'.shape) (k : ℕ) :
    filter.clause k = filter'.clause k := by
  simp only [JobFlagFilter.shape,FlagFilterShape.mk.injEq,Bool.not_inj_iff] at h
  obtain ⟨hforbidden,haccepted,hallowed⟩ := h
  unfold JobFlagFilter.clause
  rw [hforbidden,haccepted,hallowed]

theorem text_eq_of_key {call' : ClaimCall} (h : call.key = call'.key) : call.text = call'.text := by
  simp only [ClaimCall.key,QueryKey.mk.injEq] at h
  obtain ⟨hschema,hshape,hnow,hbatch⟩ := h
  have hcount : call.filter.parameterCount = call'.filter.parameterCount := by
    unfold JobFlagFilter.parameterCount
    rw [hshape]
  have hsql : call.sql = call'.sql := by
    unfold ClaimCall.sql batchGetJobsSql getJobSql
    rw [hnow,hbatch,hcount,clause_eq_of_shape hshape 3,clause_eq_of_shape hshape 4]
  unfold ClaimCall.text
  rw [hschema,hsql]

/-- Every text in the cache is that of each call with its key. -/
def QueryCache.Sound (queries : QueryCache) : Prop :=
  ∀ call : ClaimCall, ∀ sql, queries.lookup call.key = some sql → sql = call.text

theorem fetchQuery_sound {queries : QueryCache} (h : queries.Sound) (call : ClaimCall) :
    (fetchQuery queries call.key call.text).1 = call.text ∧
      QueryCache.Sound (fetchQuery queries call.key call.text).2 := by
  unfold fetchQuery
  cases hlook : queries.lookup call.key with
  | some sql => exact ⟨h call sql hlook,h⟩
  | none =>
    refine ⟨rfl,?_⟩
    intro call' sql hsql
    rw [List.lookup_cons] at hsql
    split at hsql
    · next hkey =>
      rw [← Option.some_inj.mp hsql]
      exact text_eq_of_key (beq_iff_eq.mp hkey).symm
    · split at hsql
      · simp at hsql
      · exact h call' sql hsql

theorem cacheAfter_sound (calls : List ClaimCall) : (cacheAfter calls).Sound := by
  suffices hrun : ∀ queries : QueryCache, queries.Sound → QueryCache.Sound
      (calls.foldl (fun queries call => (fetchQuery queries call.key call.text).2) queries) by
    apply hrun
    intro call sql hsql
    simp at hsql
  induction calls with
  | nil => exact fun queries h => h
  | cons call rest ih =>
    intro queries h
    exact ih _ (fetchQuery_sound h call).2

theorem fetchQuery_cacheAfter (history : List ClaimCall) (call : ClaimCall) :
    (fetchQuery (cacheAfter history) call.key call.text).1 = call.text :=
  (fetchQuery_sound (cacheAfter_sound history) call).1

/-- A text lexes into its pieces: a parameter is read where one is written and nowhere else. -/
theorem lex_text (hne : call.schema ≠ []) (h0 : '\x00' ∉ call.schema) :
    lex (plain call.text) = some (call.sql.flatMap (Piece.tokens (schemaToken call.schema))) := by
  obtain ⟨mode,hreads,hqualifies,hfinish⟩ := exists_reads hne h0
  exact lex_render hreads hqualifies hfinish (passes_sql call)

theorem ordinals_sql (call : ClaimCall) :
    ordinals (call.sql.flatMap (Piece.tokens (schemaToken call.schema))) = call.places.map Prod.fst := by
  have hname : separate [schemaToken call.schema] = true := by
    unfold schemaToken
    split <;> rfl
  exact ordinalsFrom_pieces hname fun lit hlit => proper_sql call (.text lit) hlit

theorem refers_of_mem_places (h : (k,role) ∈ call.places) :
    1 ≤ k ∧ ∃ v, call.value role = some v ∧ call.params[k - 1]? = some v := by
  obtain ⟨p,hp,hplace⟩ := List.mem_filterMap.mp h
  cases p with
  | text lit => cases hplace
  | name => cases hplace
  | param k' role' =>
    cases hplace
    exact proper_sql call _ hp

end GraphileWorker.Database

import GraphileWorker.Database.ClaimSql
import GraphileWorker.Foundation.SqlExpr

/-! # The flag predicate of a claim query

The predicate is read back from the tokens of the query's text and evaluated with SQL's three
truth values. An evaluation that fails has no value.
-/
namespace GraphileWorker.Database
open Foundation.Sql Migrations ClaimText

/-- The labels of a flags value: object keys, string elements of an array, or a string. -/
def Json.labels : Json → List String
  | .object fields => fields.map Prod.fst
  | .array items => items.filterMap fun
    | .string s => some s
    | _ => none
  | .string s => [s]
  | _ => []

def labelsOf (flags : Option Json) : List String := flags.elim [] Json.labels

structure JobFlagFilter.Eligible (filter : JobFlagFilter) (flags : Option Json) : Prop where
  forbidden : ∀ label ∈ filter.forbidden, label ∉ labelsOf flags
  accepted : filter.accepted ≠ [] → ∃ label ∈ filter.accepted, label ∈ labelsOf flags
  allowed : ∀ allowed, filter.allowed = some allowed →
    flags = none ∨ ∃ fields, flags = some (.object fields) ∧ ∀ f ∈ fields, f.1 ∈ allowed

theorem existsAny_iff (labels : List String) (flags : Json) :
    flags.existsAny labels = true ↔ ∃ label ∈ labels, label ∈ flags.labels := by
  cases flags with
  | object fields =>
    simp only [Json.existsAny,Json.labels,List.any_eq_true,List.contains_iff_mem,List.mem_map]
    constructor
    · rintro ⟨f,hf,hmem⟩
      exact ⟨f.1,hmem,f,hf,rfl⟩
    · rintro ⟨_,hmem,f,hf,rfl⟩
      exact ⟨f,hf,hmem⟩
  | array items =>
    simp only [Json.existsAny,Json.labels,List.any_eq_true,List.mem_filterMap]
    constructor
    · rintro ⟨item,hitem,hmem⟩
      cases item with
      | string s => exact ⟨s,List.contains_iff_mem.mp hmem,_,hitem,rfl⟩
      | null | bool | number | array | object => cases hmem
    · rintro ⟨label,hmem,item,hitem,hlabel⟩
      cases item with
      | string s =>
        cases hlabel
        exact ⟨_,hitem,List.contains_iff_mem.mpr hmem⟩
      | null | bool | number | array | object => cases hlabel
  | string s => simp [Json.existsAny,Json.labels]
  | null | bool | number => simp [Json.existsAny,Json.labels]

theorem any_existsAny_iff (labels : List String) (flags : Option Json) :
    flags.any (Json.existsAny labels) = true ↔ ∃ label ∈ labels, label ∈ labelsOf flags := by
  cases flags with
  | none => simp [labelsOf]
  | some flags => exact existsAny_iff labels flags

theorem any_existsAny_nil (flags : Option Json) : flags.any (Json.existsAny []) = false := by
  rw [← Bool.not_eq_true,any_existsAny_iff]
  simp

def allowedBy (allowed : List String) : Option Json → Bool
  | none => true
  | some (.object fields) => fields.all fun f => allowed.contains f.1
  | some _ => false

theorem allowedBy_iff (allowed : List String) (flags : Option Json) : allowedBy allowed flags = true ↔
    flags = none ∨ ∃ fields, flags = some (.object fields) ∧ ∀ f ∈ fields, f.1 ∈ allowed := by
  cases flags with
  | none => simp [allowedBy]
  | some flags => cases flags <;> simp [allowedBy]

theorem eligible_iff (filter : JobFlagFilter) (flags : Option Json) : filter.Eligible flags ↔
    flags.any (Json.existsAny filter.forbidden) = false ∧
      (filter.accepted ≠ [] → flags.any (Json.existsAny filter.accepted) = true) ∧
      ∀ allowed, filter.allowed = some allowed → allowedBy allowed flags = true := by
  rw [← Bool.not_eq_true,any_existsAny_iff,any_existsAny_iff]
  simp only [allowedBy_iff,not_exists,not_and]
  exact ⟨fun h => ⟨h.forbidden,h.accepted,h.allowed⟩,fun h => ⟨h.1,h.2.1,h.2.2⟩⟩

theorem accepts_iff (filter : JobFlagFilter) (flags : Option Json) :
    filter.accepts flags = true ↔ filter.Eligible flags := by
  have hforbidden : (filter.forbidden.isEmpty || !flags.any (Json.existsAny filter.forbidden)) = true ↔
      flags.any (Json.existsAny filter.forbidden) = false := by
    cases hf : filter.forbidden with
    | nil => simp [any_existsAny_nil]
    | cons => simp
  have haccepted : (filter.accepted.isEmpty || flags.any (Json.existsAny filter.accepted)) = true ↔
      (filter.accepted ≠ [] → flags.any (Json.existsAny filter.accepted) = true) := by
    cases filter.accepted with
    | nil => simp
    | cons => simp
  rw [eligible_iff,JobFlagFilter.accepts,Bool.and_eq_true,Bool.and_eq_true,hforbidden,haccepted,and_assoc]
  refine and_congr_right' (and_congr_right' ?_)
  cases filter.allowed with
  | none => simp
  | some allowed =>
    simp only [Option.some.injEq,forall_eq']
    rfl

mutual
def Json.beq : Json → Json → Bool
  | .null, .null => true
  | .bool a, .bool b => a == b
  | .number a, .number b => a == b
  | .string a, .string b => a == b
  | .array a, .array b => beqItems a b
  | .object a, .object b => beqFields a b
  | _, _ => false
def beqItems : List Json → List Json → Bool
  | [], [] => true
  | a :: as, b :: bs => a.beq b && beqItems as bs
  | _, _ => false
def beqFields : List (String × Json) → List (String × Json) → Bool
  | [], [] => true
  | (k,a) :: as, (l,b) :: bs => k == l && a.beq b && beqFields as bs
  | _, _ => false
end

inductive SqlValue
  | null
  | bool (b : Bool)
  | text (s : List Char)
  | textArray (values : List String)
  | json (j : Json)

def SqlValue.truth : Option Bool → SqlValue
  | none => .null
  | some b => .bool b

def DbValue.toSql : DbValue → Option SqlValue
  | .text s => some (.text s.toList)
  | .textArray values => some (.textArray values)
  | _ => none

def Json.typeName : Json → List Char
  | .null => ['n','u','l','l']
  | .bool _ => ['b','o','o','l','e','a','n']
  | .number _ => ['n','u','m','b','e','r']
  | .string _ => ['s','t','r','i','n','g']
  | .array _ => ['a','r','r','a','y']
  | .object _ => ['o','b','j','e','c','t']

/-- `jsonb - text[]`, which refuses scalars. -/
def Json.deleteKeys (keys : List String) : Json → Option Json
  | .object fields => some (.object (fields.filter fun f => !keys.contains f.1))
  | .array items => some (.array (items.filter fun
    | .string s => !keys.contains s
    | _ => true))
  | _ => none

/-- `?|`. -/
def sqlExistsAny : SqlValue → SqlValue → Option SqlValue
  | .null, _ | _, .null => some .null
  | .json j, .textArray labels => some (.bool (j.existsAny labels))
  | _, _ => none

def sqlMinus : SqlValue → SqlValue → Option SqlValue
  | .null, _ | _, .null => some .null
  | .json j, .textArray keys => (j.deleteKeys keys).map .json
  | _, _ => none

def sqlEqual : SqlValue → SqlValue → Option SqlValue
  | .null, _ | _, .null => some .null
  | .text a, .text b => some (.bool (a == b))
  | .json a, .json b => some (.bool (a.beq b))
  | _, _ => none

def operate (operator : List Char) (a b : SqlValue) : Option SqlValue :=
  if operator = ['?','|'] then sqlExistsAny a b
  else if operator = ['-'] then sqlMinus a b
  else if operator = ['='] then sqlEqual a b
  else none

def sqlTypeof : SqlValue → Option SqlValue
  | .null => some .null
  | .json j => some (.text j.typeName)
  | _ => none

def sqlCall (function : List Char) (a : SqlValue) : Option SqlValue :=
  if function = ['j','s','o','n','b','_','t','y','p','e','o','f'] then sqlTypeof a else none

def castTextArray : SqlValue → Option SqlValue
  | .null => some .null
  | .textArray values => some (.textArray values)
  | _ => none

/-- `::jsonb`, of which only the empty object is read. -/
def castJson : SqlValue → Option SqlValue
  | .null => some .null
  | .text s => if s = ['\x7b','\x7d'] then some (.json (.object [])) else none
  | _ => none

def castTo (type : List Char) (array : Bool) (a : SqlValue) : Option SqlValue :=
  if type = ['t','e','x','t'] ∧ array = true then castTextArray a
  else if type = ['j','s','o','n','b'] ∧ array = false then castJson a
  else none

def sqlIsNull : SqlValue → SqlValue
  | .null => .bool true
  | _ => .bool false

def sqlIsNotTrue : SqlValue → Option SqlValue
  | .null => some (.bool true)
  | .bool b => some (.bool !b)
  | _ => none

def sqlAnd : SqlValue → SqlValue → Option SqlValue
  | .bool false, .bool _ | .bool false, .null | .bool true, .bool false | .null, .bool false => some (.bool false)
  | .bool true, .bool true => some (.bool true)
  | .bool true, .null | .null, .bool true | .null, .null => some .null
  | _, _ => none

/-- A branch of `case` matters only if it is taken. -/
def sqlCase : SqlValue → Option SqlValue → Option SqlValue → Option SqlValue
  | .bool true, value, _ => value
  | .bool false, _, rest | .null, _, rest => rest
  | _, _, _ => none

/-- Both operands of `and` need a value, as they may be evaluated in any order. -/
def eval (param : ℕ → Option SqlValue) (column : List Char → List Char → Option SqlValue) : Expr → Option SqlValue
  | .param k => param k
  | .column table name => column table name
  | .string s => some (.text s)
  | .bool b => some (.bool b)
  | .cast e type array => (eval param column e).bind (castTo type array)
  | .call function e => (eval param column e).bind (sqlCall function)
  | .op operator a b => (eval param column a).bind fun x => (eval param column b).bind fun y => operate operator x y
  | .isNull e => (eval param column e).map sqlIsNull
  | .isNotTrue e => (eval param column e).bind sqlIsNotTrue
  | .caseWhen condition value rest =>
    (eval param column condition).bind fun x => sqlCase x (eval param column value) (eval param column rest)
  | .and a b => (eval param column a).bind fun x => (eval param column b).bind (sqlAnd x)

section Equations
variable (param : ℕ → Option SqlValue) (column : List Char → List Char → Option SqlValue)

theorem eval_string (s : List Char) : eval param column (.string s) = some (.text s) := rfl

theorem eval_cast (e : Expr) (type : List Char) (array : Bool) :
    eval param column (.cast e type array) = (eval param column e).bind (castTo type array) := rfl

theorem eval_op (operator : List Char) (a b : Expr) : eval param column (.op operator a b) =
    (eval param column a).bind fun x => (eval param column b).bind fun y => operate operator x y := rfl

end Equations

theorem beqFields_nil (fields : List (String × Json)) : beqFields fields [] = fields.isEmpty := by
  cases fields with
  | nil => rfl
  | cons => rfl

def flagsColumn : Expr := .column ['j','o','b','s'] ['f','l','a','g','s']

def listParam (k : ℕ) : Expr := .cast (.param k) ['t','e','x','t'] true

def forbiddenTest (k : ℕ) : Expr := .isNotTrue (.op ['?','|'] flagsColumn (listParam k))

def acceptedTest (k : ℕ) : Expr := .op ['?','|'] flagsColumn (listParam k)

def allowedTest (k : ℕ) : Expr :=
  .caseWhen (.isNull flagsColumn) (.bool true)
    (.caseWhen (.op ['='] (.call ['j','s','o','n','b','_','t','y','p','e','o','f'] flagsColumn)
        (.string ['o','b','j','e','c','t']))
      (.op ['='] (.op ['-'] flagsColumn (listParam k)) (.cast (.string ['\x7b','\x7d']) ['j','s','o','n','b'] false))
      (.bool false))

def FlagFilterShape.tests (shape : FlagFilterShape) (k : ℕ) : List Expr :=
  (if shape.forbidden then [forbiddenTest k] else []) ++
  (if shape.accepted then [acceptedTest (k + shape.forbidden.toNat)] else []) ++
  if shape.allowlist then [allowedTest (k + shape.forbidden.toNat + shape.accepted.toNat)] else []

def conjunction : List Expr → Option Expr
  | [] => none
  | e :: rest => some ((conjunction rest).elim e (.and e))

/-- The clause, written with the six texts it uses. -/
def clauseOf (texts : List (List Char)) (shape : FlagFilterShape) (k : ℕ) : List ClaimPiece :=
  match texts with
  | [fh,ft,ah,at_,lh,lt] =>
    (if shape.forbidden then [.text fh,.param k .forbidden,.text ft] else []) ++
    (if shape.accepted then [.text ah,.param (k + shape.forbidden.toNat) .accepted,.text at_] else []) ++
    if shape.allowlist then [.text lh,.param (k + shape.forbidden.toNat + shape.accepted.toNat) .allowed,.text lt] else []
  | _ => []

def clauseTexts : List String := [forbiddenHead,forbiddenTail,acceptedHead,acceptedTail,allowedHead,allowedTail]

theorem clause_eq_clauseOf (filter : JobFlagFilter) (k : ℕ) :
    filter.clause k = clauseOf (clauseTexts.map String.toList) filter.shape k := by
  unfold JobFlagFilter.clause clauseTexts JobFlagFilter.shape
  cases filter.forbidden.isEmpty <;> cases filter.accepted.isEmpty <;> cases filter.allowed.isSome <;> rfl

def shapes : List FlagFilterShape :=
  [false,true].flatMap fun f => [false,true].flatMap fun a => [false,true].map fun l => ⟨f,a,l⟩

theorem mem_shapes (shape : FlagFilterShape) : shape ∈ shapes := by
  obtain ⟨f,a,l⟩ := shape
  cases f <;> cases a <;> cases l <;> decide

theorem addedCondition_clause {filter : JobFlagFilter} {k : ℕ} (hk : k ∈ [3,4]) (t : Token) :
    addedCondition ((filter.clause k).flatMap (Piece.tokens t)) = some (conjunction (filter.shape.tests k)) := by
  have hname : ∀ texts shape, (clauseOf texts shape k).flatMap (Piece.tokens t) =
      (clauseOf texts shape k).flatMap (Piece.tokens .hole) := by
    intro texts shape
    unfold clauseOf
    split
    · split <;> split <;> split <;> rfl
    · rfl
  have hspelled : ∃ spelling, Spelled clauseTexts spelling ∧ (shapes.all fun shape => [3,4].all fun k =>
      addedCondition ((clauseOf spelling shape k).flatMap (Piece.tokens .hole)) ==
        some (conjunction (shape.tests k))) = true :=
    ⟨_,by repeat' constructor,by decide +kernel⟩
  obtain ⟨spelling,hs,hall⟩ := hspelled
  have hshape := List.all_eq_true.mp (List.all_eq_true.mp hall filter.shape (mem_shapes _)) k hk
  rw [clause_eq_clauseOf,hname,hs.eq_map]
  exact beq_iff_eq.mp hshape

def flagsValue : Option Json → SqlValue
  | none => .null
  | some flags => .json flags

def rowColumn (flags : Option Json) (table name : List Char) : Option SqlValue :=
  if table = ['j','o','b','s'] ∧ name = ['f','l','a','g','s'] then some (flagsValue flags) else none

def ClaimCall.param (call : ClaimCall) (k : ℕ) : Option SqlValue :=
  if k = 0 then none else call.params[k - 1]?.bind DbValue.toSql

section Evaluation
variable {param : ℕ → Option SqlValue} {flags : Option Json} {k : ℕ} {labels : List String}
  {column : List Char → List Char → Option SqlValue}

theorem eval_listParam (h : param k = some (.textArray labels)) :
    eval param column (listParam k) = some (.textArray labels) := by
  change (param k).bind (castTo ['t','e','x','t'] true) = _
  rw [h]
  simp [castTo,castTextArray]

theorem eval_flagsColumn : eval param (rowColumn flags) flagsColumn = some (flagsValue flags) := by
  change rowColumn flags _ _ = _
  simp [rowColumn]

theorem eval_acceptedTest (h : param k = some (.textArray labels)) :
    eval param (rowColumn flags) (acceptedTest k) = some (.truth (flags.map (Json.existsAny labels))) := by
  rw [acceptedTest,eval_op,eval_flagsColumn,eval_listParam h]
  cases flags with
  | none => rfl
  | some flags => rfl

theorem eval_forbiddenTest (h : param k = some (.textArray labels)) :
    eval param (rowColumn flags) (forbiddenTest k) = some (.bool !(flags.any (Json.existsAny labels))) := by
  change (eval param (rowColumn flags) (acceptedTest k)).bind sqlIsNotTrue = _
  rw [eval_acceptedTest h]
  cases flags with
  | none => rfl
  | some flags => rfl

theorem eval_caseWhen {condition value rest : Expr} {b : Bool}
    (h : eval param column condition = some (.bool b)) : eval param column (.caseWhen condition value rest) =
      if b then eval param column value else eval param column rest := by
  change (eval param column condition).bind _ = _
  rw [h]
  cases b with
  | true => rfl
  | false => rfl

/-- Only an object gets to the deletion, so it never meets a scalar. -/
theorem eval_allowedTest (h : param k = some (.textArray labels)) :
    eval param (rowColumn flags) (allowedTest k) = some (.bool (allowedBy labels flags)) := by
  have hnull : eval param (rowColumn flags) (.isNull flagsColumn) = some (.bool flags.isNone) := by
    change (eval param (rowColumn flags) flagsColumn).map sqlIsNull = _
    rw [eval_flagsColumn]
    cases flags with
    | none => rfl
    | some flags => rfl
  rw [allowedTest,eval_caseWhen hnull]
  cases flags with
  | none => rfl
  | some flags =>
    have htype : eval param (rowColumn (some flags)) (.op ['='] (.call ['j','s','o','n','b','_','t','y','p','e','o','f']
        flagsColumn) (.string ['o','b','j','e','c','t'])) =
        some (.bool (flags.typeName == ['o','b','j','e','c','t'])) := by
      change ((eval param (rowColumn (some flags)) flagsColumn).bind (sqlCall _)).bind _ = _
      rw [eval_flagsColumn]
      simp [flagsValue,sqlCall,sqlTypeof,operate,sqlEqual,eval_string]
    rw [Option.isNone_some,if_neg Bool.false_ne_true,eval_caseWhen htype]
    cases flags with
    | object fields =>
      have hrest : eval param (rowColumn (some (.object fields))) (.op ['-'] flagsColumn (listParam k)) =
          some (.json (.object (fields.filter fun f => !labels.contains f.1))) := by
        rw [eval_op,eval_flagsColumn,eval_listParam h]
        simp [flagsValue,operate,sqlMinus,Json.deleteKeys]
      have hempty : eval param (rowColumn (some (.object fields)))
          (.cast (.string ['\x7b','\x7d']) ['j','s','o','n','b'] false) = some (.json (.object [])) := by
        rw [eval_cast,eval_string]
        simp [castTo,castJson]
      have hlisted : (fields.filter fun f => !labels.contains f.1).isEmpty =
          fields.all fun f => labels.contains f.1 := by
        rw [Bool.eq_iff_iff]
        simp
      have hobject : ((Json.object fields).typeName == ['o','b','j','e','c','t']) = true := rfl
      rw [if_pos hobject,eval_op,hrest,hempty,allowedBy,← hlisted,← beqFields_nil]
      rfl
    | null | bool | number | string | array => rfl

/-- The value of a condition that a text adds; no condition restricts nothing. -/
def evalAdded (param : ℕ → Option SqlValue) (column : List Char → List Char → Option SqlValue) :
    Option Expr → Option SqlValue
  | none => some (.bool true)
  | some e => eval param column e

theorem sqlAnd_truth (a b : Option Bool) : ∃ v, sqlAnd (.truth a) (.truth b) = some (.truth v) ∧
    (v = some true ↔ a = some true ∧ b = some true) := by
  cases a with
  | none =>
    cases b with
    | none => exact ⟨none,rfl,by decide⟩
    | some b => cases b with
      | true => exact ⟨none,rfl,by decide⟩
      | false => exact ⟨some false,rfl,by decide⟩
  | some a =>
    cases b with
    | none => cases a with
      | true => exact ⟨none,rfl,by decide⟩
      | false => exact ⟨some false,rfl,by decide⟩
    | some b => exact ⟨some (a && b),by cases a <;> cases b <;> rfl,by simp⟩

theorem truth_eq_bool {a : Option Bool} {b : Bool} : SqlValue.truth a = .bool b ↔ a = some b := by
  cases a with
  | none => simp [SqlValue.truth]
  | some a => simp [SqlValue.truth]

theorem evalAdded_conjunction {es : List Expr} (h : ∀ e ∈ es, ∃ v, eval param column e = some (.truth v)) :
    ∃ v, evalAdded param column (conjunction es) = some (.truth v) ∧
      (v = some true ↔ ∀ e ∈ es, eval param column e = some (.bool true)) := by
  induction es with
  | nil => exact ⟨some true,rfl,by simp⟩
  | cons e rest ih =>
    obtain ⟨⟨a,ha⟩,hrest⟩ := List.forall_mem_cons.mp h
    obtain ⟨b,hb,hall⟩ := ih hrest
    have hfirst : eval param column e = some (.bool true) ↔ a = some true := by
      rw [ha,Option.some_inj,truth_eq_bool]
    cases hc : conjunction rest with
    | none =>
      rw [hc] at hb
      have htrue : b = some true := truth_eq_bool.mp (Option.some_inj.mp hb).symm
      refine ⟨a,?_,?_⟩
      · rw [conjunction,hc]
        exact ha
      · rw [List.forall_mem_cons,hfirst,← hall,htrue,eq_self,and_true]
    | some others =>
      rw [hc,evalAdded] at hb
      obtain ⟨v,hv,hiff⟩ := sqlAnd_truth a b
      refine ⟨v,?_,?_⟩
      · rw [conjunction,hc]
        change (eval param column e).bind (fun x => (eval param column others).bind (sqlAnd x)) = _
        rw [ha,hb]
        exact hv
      · rw [List.forall_mem_cons,hfirst,← hall,hiff]

end Evaluation

section Tests
variable {call : ClaimCall} {flags : Option Json}

theorem param_of_mem_clause {k : ℕ} {role : ClaimRole} {labels : List String}
    (h : .param k role ∈ call.filter.clause call.firstFilter) (hv : call.value role = some (.textArray labels)) :
    call.param k = some (.textArray labels) := by
  obtain ⟨hk,v,hvalue,hparam⟩ := proper_clause call _ h
  obtain rfl : v = .textArray labels := Option.some_inj.mp (hvalue.symm.trans hv)
  rw [ClaimCall.param,if_neg (by omega),hparam]
  rfl

theorem forall_mem_ite {α : Type} {P : α → Prop} {b : Bool} {a : α} :
    (∀ e ∈ if b then [a] else [], P e) ↔ (b = true → P a) := by
  cases b with
  | true => simp
  | false => simp

variable (call flags) in
theorem eval_tests :
    (call.filter.shape.forbidden = true → eval call.param (rowColumn flags) (forbiddenTest call.firstFilter) =
      some (.bool !(flags.any (Json.existsAny call.filter.forbidden)))) ∧
    (call.filter.shape.accepted = true →
      eval call.param (rowColumn flags) (acceptedTest (call.firstFilter + call.filter.shape.forbidden.toNat)) =
        some (.truth (flags.map (Json.existsAny call.filter.accepted)))) ∧
    (∀ allowed, call.filter.allowed = some allowed → eval call.param (rowColumn flags)
      (allowedTest (call.firstFilter + call.filter.shape.forbidden.toNat + call.filter.shape.accepted.toNat)) =
        some (.bool (allowedBy allowed flags))) := by
  refine ⟨fun h => ?_,fun h => ?_,fun allowed h => ?_⟩
  · have hmem : .param call.firstFilter .forbidden ∈ call.filter.clause call.firstFilter := by
      rw [clause_eq_clauseOf]
      simp [clauseOf,clauseTexts,h]
    exact eval_forbiddenTest (param_of_mem_clause hmem rfl)
  · have hmem : .param (call.firstFilter + call.filter.shape.forbidden.toNat) .accepted ∈
        call.filter.clause call.firstFilter := by
      rw [clause_eq_clauseOf]
      simp [clauseOf,clauseTexts,h]
    exact eval_acceptedTest (param_of_mem_clause hmem rfl)
  · have hshape : call.filter.shape.allowlist = true := by simp [JobFlagFilter.shape,h]
    have hmem : .param (call.firstFilter + call.filter.shape.forbidden.toNat + call.filter.shape.accepted.toNat)
        .allowed ∈ call.filter.clause call.firstFilter := by
      rw [clause_eq_clauseOf]
      simp [clauseOf,clauseTexts,hshape]
    have hvalue : call.value .allowed = some (.textArray allowed) := by simp [ClaimCall.value,h]
    exact eval_allowedTest (param_of_mem_clause hmem hvalue)

variable (call flags) in
theorem evalAdded_tests : ∃ v,
    evalAdded call.param (rowColumn flags) (conjunction (call.filter.shape.tests call.firstFilter)) =
      some (.truth v) ∧ (v = some true ↔ call.filter.Eligible flags) := by
  obtain ⟨hforbidden,haccepted,hallowed⟩ := eval_tests call flags
  have hsome : call.filter.shape.allowlist = true → ∃ allowed, call.filter.allowed = some allowed :=
    fun h => Option.isSome_iff_exists.mp h
  have hvalues : ∀ e ∈ call.filter.shape.tests call.firstFilter, ∃ v,
      eval call.param (rowColumn flags) e = some (.truth v) := by
    unfold FlagFilterShape.tests
    rw [List.forall_mem_append,List.forall_mem_append,forall_mem_ite,forall_mem_ite,forall_mem_ite]
    refine ⟨⟨fun h => ⟨some _,hforbidden h⟩,fun h => ⟨_,haccepted h⟩⟩,fun h => ?_⟩
    obtain ⟨allowed,ha⟩ := hsome h
    exact ⟨some _,hallowed allowed ha⟩
  obtain ⟨v,hv,hiff⟩ := evalAdded_conjunction hvalues
  refine ⟨v,hv,hiff.trans ?_⟩
  unfold FlagFilterShape.tests
  rw [List.forall_mem_append,List.forall_mem_append,forall_mem_ite,forall_mem_ite,forall_mem_ite,eligible_iff,and_assoc]
  refine and_congr ?_ (and_congr ?_ ?_)
  · cases hs : call.filter.shape.forbidden with
    | true =>
      rw [hforbidden hs]
      simp
    | false =>
      have hnil : call.filter.forbidden = [] := by simpa [JobFlagFilter.shape] using hs
      simp [hnil,any_existsAny_nil]
  · have hshape : call.filter.shape.accepted = true ↔ call.filter.accepted ≠ [] := by simp [JobFlagFilter.shape]
    rw [hshape]
    refine imp_congr_right fun hne => ?_
    rw [haccepted (hshape.mpr hne),Option.some_inj,truth_eq_bool]
    cases flags with
    | none => simp
    | some flags => simp
  · constructor
    · intro h allowed ha
      have htest := h (Option.isSome_iff_exists.mpr ⟨allowed,ha⟩)
      rw [hallowed allowed ha] at htest
      simpa using htest
    · intro h hs
      obtain ⟨allowed,ha⟩ := hsome hs
      rw [hallowed allowed ha,h allowed ha]

end Tests

def isBlankToken : Token → Bool
  | .symbol c => isBlank c
  | _ => false

def significant (ts : List Token) : List Token := ts.filter fun t => !isBlankToken t

/-- A condition ends before what stands between the two, and the order of the rows comes after it. -/
structure EndsWhere (front rest : List Token) : Prop where
  condition : (significant front).getLast? = some (.symbol ')')
  order : (significant rest).head? = some (.word ['o','r','d','e','r'])

theorem around_clause : (significant (textTokens queueTail.toList)).getLast? = some (.symbol ')') ∧
    significant (textTokens whereFlags.toList) = [] ∧ ∀ next ∈ [getJobLimit,batchOrder],
      (significant (textTokens next.toList)).head? = some (.word ['o','r','d','e','r']) := by
  have hspelled : ∃ queue flags limit order, Spelled [queueTail,whereFlags,getJobLimit,batchOrder]
      [queue,flags,limit,order] ∧ (significant (textTokens queue)).getLast? = some (.symbol ')') ∧
      significant (textTokens flags) = [] ∧ ∀ next ∈ [limit,order],
        (significant (textTokens next)).head? = some (.word ['o','r','d','e','r']) :=
    ⟨_,_,_,_,by repeat' constructor,by decide +kernel⟩
  obtain ⟨_,_,_,_,hs,hall⟩ := hspelled
  have hmap := hs.eq_map
  simp only [List.map_cons,List.map_nil,List.cons.injEq,and_true] at hmap
  obtain ⟨rfl,rfl,rfl,rfl⟩ := hmap
  exact ⟨hall.1,hall.2.1,by simpa using hall.2.2⟩

theorem exists_endsWhere {front clause rest : List ClaimPiece} {next : String} (t : Token)
    (h : next ∈ [getJobLimit,batchOrder]) : ∃ before after,
      (front ++ getQueueClause ++ [fixed whereFlags] ++ clause ++ fixed next :: rest).flatMap (Piece.tokens t) =
        before ++ clause.flatMap (Piece.tokens t) ++ after ∧ EndsWhere before after := by
  refine ⟨_,_,by rw [List.flatMap_append,List.flatMap_append],?_,?_⟩
  · have hlast := around_clause.1
    simp only [getQueueClause,fixed,List.flatMap_append,List.flatMap_cons,List.flatMap_nil,List.append_nil,
      Piece.tokens,significant,List.filter_append] at hlast ⊢
    have hblank : (textTokens whereFlags.toList).filter (fun t => !isBlankToken t) = [] := around_clause.2.1
    rw [hblank,List.append_nil,List.getLast?_append,List.getLast?_append,List.getLast?_append,hlast]
    rfl
  · have hhead := around_clause.2.2 next h
    simp only [fixed,List.flatMap_cons,Piece.tokens,significant,List.filter_append] at hhead ⊢
    rw [List.head?_append,hhead]
    rfl

def ClaimCall.flagTokens (call : ClaimCall) : List Token :=
  (call.filter.clause call.firstFilter).flatMap (Piece.tokens (schemaToken call.schema))

theorem exists_endsWhere_sql (call : ClaimCall) : ∃ before after,
    call.sql.flatMap (Piece.tokens (schemaToken call.schema)) = before ++ call.flagTokens ++ after ∧
      EndsWhere before after := by
  unfold ClaimCall.sql ClaimCall.flagTokens ClaimCall.firstFilter
  split
  · unfold batchGetJobsSql
    rw [List.append_assoc,List.append_assoc]
    exact exists_endsWhere _ (by simp)
  · unfold getJobSql
    rw [List.append_assoc,List.append_assoc]
    exact exists_endsWhere _ (by simp)

/-- After any earlier calls each parameter of a text has the number of its value, and the clause of the
filter is one condition, which is true exactly on the eligible rows. -/
theorem flag_predicate_selects_eligible (history : List ClaimCall) (call : ClaimCall) :
    (fetchQuery (cacheAfter history) call.key call.text).1 = call.text ∧
    (∀ k role, (k,role) ∈ call.places → 1 ≤ k ∧ ∃ v, call.value role = some v ∧ call.params[k - 1]? = some v) ∧
    (call.schema ≠ [] → '\x00' ∉ call.schema → ∃ before after condition,
      lex (plain (fetchQuery (cacheAfter history) call.key call.text).1) = some (before ++ call.flagTokens ++ after) ∧
      ordinals (before ++ call.flagTokens ++ after) = call.places.map Prod.fst ∧ EndsWhere before after ∧
      addedCondition call.flagTokens = some condition ∧
      ∀ flags, ∃ v, evalAdded call.param (rowColumn flags) condition = some (.truth v) ∧
        (v = some true ↔ call.filter.Eligible flags)) := by
  refine ⟨fetchQuery_cacheAfter history call,fun k role h => refers_of_mem_places h,fun hne h0 => ?_⟩
  have hfirst : call.firstFilter ∈ [3,4] := by
    unfold ClaimCall.firstFilter
    split <;> simp
  obtain ⟨before,after,hsql,hends⟩ := exists_endsWhere_sql call
  have hlex := lex_text hne h0
  have hordinals := ordinals_sql call
  rw [hsql] at hlex hordinals
  rw [fetchQuery_cacheAfter]
  exact ⟨before,after,_,hlex,hordinals,hends,addedCondition_clause hfirst _,evalAdded_tests call⟩

theorem allowlist_after_other_shape : ∃ before after condition,
    let other : ClaimCall := ⟨['a'],"w",[1],⟨["x"],[],none⟩,none,none⟩
    let call : ClaimCall := ⟨['a',' ','b'],"w",[1],⟨["x"],["a"],some ["a","b"]⟩,some 5,some 0⟩
    lex (plain (fetchQuery (cacheAfter [other]) call.key call.text).1) = some (before ++ call.flagTokens ++ after) ∧
      EndsWhere before after ∧ addedCondition call.flagTokens = some condition ∧
      evalAdded call.param (rowColumn (some (.object [("a",.null)]))) condition = some (.bool true) := by
  obtain ⟨before,after,condition,hlex,-,hends,hcondition,hall⟩ := (flag_predicate_selects_eligible
    [⟨['a'],"w",[1],⟨["x"],[],none⟩,none,none⟩]
    ⟨['a',' ','b'],"w",[1],⟨["x"],["a"],some ["a","b"]⟩,some 5,some 0⟩).2.2 (by simp) (by decide)
  obtain ⟨v,hv,hiff⟩ := hall (some (.object [("a",.null)]))
  rw [hiff.mpr ((accepts_iff _ _).mp (by decide))] at hv
  exact ⟨before,after,condition,hlex,hends,hcondition,hv⟩

end GraphileWorker.Database

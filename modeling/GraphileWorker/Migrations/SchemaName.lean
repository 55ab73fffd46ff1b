import GraphileWorker.Foundation.SqlLexer
import Mathlib.Algebra.Ring.Nat
import Mathlib.Data.List.Forall2

/-! # The schema's name in the statements of a migration

`execute` replaces `:GRAPHILE_WORKER_SCHEMA` by the escaped name of the schema, which is quoted
unless it is a plain lower-case word that is no keyword.
-/
namespace GraphileWorker.Migrations
open Foundation Foundation.Sql

def keywordsRequiringQuotes : List String :=
  ["all","analyse","analyze","and","any","array","as","asc","asymmetric","authorization","between","bigint",
   "binary","bit","boolean","both","case","cast","char","character","check","coalesce","collate","collation",
   "column","concurrently","constraint","create","cross","current_catalog","current_date","current_role",
   "current_schema","current_time","current_timestamp","current_user","dec","decimal","default","deferrable",
   "desc","distinct","do","else","end","except","exists","extract","false","fetch","float","for","foreign",
   "freeze","from","full","grant","graph_table","greatest","group","grouping","having","ilike","in","initially",
   "inner","inout","int","integer","intersect","interval","into","is","isnull","join","json","json_array",
   "json_arrayagg","json_exists","json_object","json_objectagg","json_query","json_scalar","json_serialize",
   "json_table","json_value","lateral","leading","least","left","like","limit","localtime","localtimestamp",
   "merge_action","national","natural","nchar","none","normalize","not","notnull","null","nullif","numeric",
   "offset","on","only","or","order","out","outer","overlaps","overlay","placing","position","precision",
   "primary","real","references","returning","right","row","select","session_user","setof","similar","smallint",
   "some","substring","symmetric","system_user","table","tablesample","then","time","timestamp","to","trailing",
   "treat","trim","true","union","unique","user","using","values","varchar","variadic","verbose","when","where",
   "window","with","xmlattributes","xmlconcat","xmlelement","xmlexists","xmlforest","xmlnamespaces","xmlparse",
   "xmlpi","xmlroot","xmlserialize","xmltable"]

/-- `binary_search`, which on a sorted list finds whatever the list has. -/
def requiresQuotes (identifier : List Char) : Bool := keywordsRequiringQuotes.contains (String.ofList identifier)

def isSafeStart (c : Char) : Bool := c.isLower || c == '_'

def isSafePart (c : Char) : Bool := c.isLower || c.isDigit || c == '_'

def isSafeIdentifier (identifier : List Char) : Bool :=
  match identifier.head? with
  | none => false
  | some first => isSafeStart first && identifier.all isSafePart && !requiresQuotes identifier

def escapeIdentifier (identifier : List Char) : List Char :=
  if isSafeIdentifier identifier then identifier else quote identifier

structure Schema where
  escaped : List Char

def Schema.new (schema : List Char) : Schema := ⟨escapeIdentifier schema⟩

def defaultSchemaName : List Char := "graphile_worker".toList

def Schema.default : Schema := .new defaultSchemaName

/-- `:GRAPHILE_WORKER_SCHEMA` without its colon. -/
def markerName : List Char :=
  ['G','R','A','P','H','I','L','E','_','W','O','R','K','E','R','_','S','C','H','E','M','A']

def executedText (stmt : String) (schema : Schema) : List Char :=
  replaceAll (':' :: markerName) schema.escaped 0 stmt.toList

def Spelled : List String → List (List Char) → Prop := List.Forall₂ fun s chars => s = String.ofList chars

variable {words : List String} {spelling : List (List Char)}

theorem Spelled.eq_map (h : Spelled words spelling) : words.map String.toList = spelling := by
  induction h with
  | nil => rfl
  | cons hs _ ih => rw [List.map_cons,ih,hs,String.toList_ofList]

theorem isChain_of_spelled (h : Spelled words spelling)
    (hs : spelling.IsChain (· < ·)) : words.IsChain fun a b => a.toList < b.toList := by
  rw [← h.eq_map,List.isChain_map] at hs
  exact hs

theorem keywords_sorted : keywordsRequiringQuotes.IsChain fun a b => a.toList < b.toList :=
  isChain_of_spelled (by repeat' constructor) (by decide +kernel)

/-- PostgreSQL keeps the first 63 bytes of an identifier, and no part of a character. -/
def clip : (limit : ℕ) → List Char → List Char
  | _, [] => []
  | limit, c :: text => if c.utf8Size ≤ limit then c :: clip (limit - c.utf8Size) text else []

def nameLimit : ℕ := 63

/-- The identifier that a token is; a keyword is none. -/
def identifierOf : Token → Option (List Char)
  | .word text =>
    let folded := text.map Char.toLower
    if requiresQuotes folded then none else some (clip nameLimit folded)
  | .quoted text => some (clip nameLimit text)
  | _ => none

def schemaToken (schema : List Char) : Token :=
  if isSafeIdentifier schema then .word schema else .quoted schema

theorem clip_eq_iff {limit : ℕ} {text : List Char} : clip limit text = text ↔ (text.map Char.utf8Size).sum ≤ limit := by
  induction text generalizing limit with
  | nil => simp [clip]
  | cons c text ih =>
    rw [List.map_cons,List.sum_cons,clip]
    by_cases hc : c.utf8Size ≤ limit
    · rw [if_pos hc,List.cons_inj_right,ih]
      omega
    · rw [if_neg hc]
      exact iff_of_false (List.cons_ne_nil c text).symm (by omega)

variable {s : List Char} {c : Char}

theorem exists_of_isSafe (h : isSafeIdentifier s = true) : ∃ c cs, s = c :: cs ∧ isSafeStart c = true ∧
    (∀ d ∈ s, isSafePart d = true) ∧ requiresQuotes s = false := by
  cases s with
  | nil => cases h
  | cons c cs =>
    simp only [isSafeIdentifier,List.head?_cons,Bool.and_eq_true,List.all_eq_true,Bool.not_eq_true'] at h
    exact ⟨c,cs,rfl,h.1.1,h.1.2,h.2⟩

theorem isAlpha_of_isLower (h : c.isLower = true) : c.isAlpha = true := by
  have hor : c.isAlpha = (c.isUpper || c.isLower) := rfl
  rw [hor,h,Bool.or_true]

theorem identStart_of_safe (h : isSafeStart c = true) : identStart c = true := by
  simp only [isSafeStart,Bool.or_eq_true] at h
  obtain h | h := h
  · simp [identStart,isAlpha_of_isLower h]
  · simp [identStart,h]

theorem tagPart_of_safe (h : isSafePart c = true) : tagPart c = true := by
  simp only [isSafePart,Bool.or_eq_true] at h
  obtain (h | h) | h := h
  · simp [tagPart,identStart,isAlpha_of_isLower h]
  · simp [tagPart,h]
  · simp [tagPart,identStart,h]

theorem exists_filler (hne : s ≠ []) (h0 : '\x00' ∉ s) (hd : ¬['$','$'] <:+: s) :
    ∃ F : Filler, F.name = escapeIdentifier s ∧ F.token = schemaToken s := by
  by_cases hsafe : isSafeIdentifier s = true
  · obtain ⟨c,cs,rfl,hc,hcs,-⟩ := exists_of_isSafe hsafe
    refine ⟨.bare c cs (identStart_of_safe hc) fun d hd => tagPart_of_safe (hcs d (List.mem_cons_of_mem c hd)),?_⟩
    simp [escapeIdentifier,schemaToken,hsafe,Filler.bare]
  · refine ⟨.quotedName s hne h0 (apart_of_no_pair hd),?_⟩
    simp [escapeIdentifier,schemaToken,hsafe,Filler.quotedName]

theorem exists_reads (hne : s ≠ []) (h0 : '\x00' ∉ s) : ∃ mode,
    (∀ prev, mayPrecede prev = true → read (.normal prev) (plain (escapeIdentifier s)) = some (mode,[])) ∧
    step mode (some '.') = some (.normal (some '.'),[schemaToken s,.symbol '.']) ∧
    finish mode = some [schemaToken s] := by
  by_cases hsafe : isSafeIdentifier s = true
  · obtain ⟨c,cs,rfl,hc,hcs,-⟩ := exists_of_isSafe hsafe
    have hparts : ∀ d ∈ cs, tagPart d = true := fun d hd => tagPart_of_safe (hcs d (List.mem_cons_of_mem c hd))
    have hname : escapeIdentifier (c :: cs) = c :: cs := by simp [escapeIdentifier,hsafe]
    have htoken : schemaToken (c :: cs) = .word (c :: cs) := by simp [schemaToken,hsafe]
    rw [hname,htoken]
    refine ⟨_,(Filler.bare c cs (identStart_of_safe hc) hparts).reads,
      (Filler.bare c cs (identStart_of_safe hc) hparts).qualifies,?_⟩
    simp [Filler.bare,finish]
  · have hname : escapeIdentifier s = quote s := by simp [escapeIdentifier,hsafe]
    have htoken : schemaToken s = .quoted s := by simp [schemaToken,hsafe]
    rw [hname,htoken]
    refine ⟨_,fun prev hprev => read_quote h0 hprev,step_quotedEnd_dot hne,?_⟩
    simp [finish,hne]

theorem between_of_decide {lo hi v : UInt32} (h : (decide (v ≥ lo) && decide (v ≤ hi)) = true) : lo ≤ v ∧ v ≤ hi := by
  simpa using h

theorem toLower_of_safe (h : isSafePart c = true) : c.toLower = c := by
  have hupper : ¬(c.val ≥ 'A'.val ∧ c.val ≤ 'Z'.val) := by
    rintro ⟨hlo,hhi⟩
    simp only [isSafePart,Bool.or_eq_true,beq_iff_eq] at h
    obtain (h | h) | rfl := h
    · exact absurd (UInt32.le_trans (between_of_decide h).1 hhi) (by decide)
    · exact absurd (UInt32.le_trans hlo (between_of_decide h).2) (by decide)
    · exact absurd hhi (by decide)
  exact dif_neg hupper

theorem identifierOf_schemaToken (s : List Char) : identifierOf (schemaToken s) = some (clip nameLimit s) := by
  by_cases hsafe : isSafeIdentifier s = true
  · obtain ⟨c,cs,-,-,hcs,hq⟩ := exists_of_isSafe hsafe
    have hfold : s.map Char.toLower = s :=
      (List.map_congr_left fun d hd => toLower_of_safe (hcs d hd)).trans (List.map_id' s)
    simp [schemaToken,hsafe,identifierOf,hfold,hq]
  · simp [schemaToken,hsafe,identifierOf]

theorem escapeIdentifier_of_dollar (h : '$' ∈ s) : escapeIdentifier s = quote s := by
  refine if_neg fun hsafe => ?_
  obtain ⟨c,cs,-,-,hcs,-⟩ := exists_of_isSafe hsafe
  exact absurd (hcs '$' h) (by decide)

/-- A statement with a hole for every place of the schema's name. -/
def template (stmt : String) : List Cell := holes ':' markerName 0 stmt.toList

def joinSpelled : List (List Char) → List Char
  | [] => []
  | [line] => line
  | line :: lines => line ++ '\n' :: joinSpelled lines

def marked (text : List Char) : List Char := text.flatMap fun c => if c = '@' then ':' :: markerName else [c]

/-- A statement from parts of whole lines, in which `@` stands for `:GRAPHILE_WORKER_SCHEMA`. -/
def statement (parts : List String) : String := String.ofList (marked (joinSpelled (parts.map String.toList)))

theorem lexes_of_spelled {stmts : List (List String)} {spellings : List (List (List Char))}
    (h : List.Forall₂ Spelled stmts spellings)
    (hc : (spellings.all fun spelling =>
      (lexStatement (holes ':' markerName 0 (marked (joinSpelled spelling)))).isSome) = true) :
    ∀ parts ∈ stmts, ∃ items, lexStatement (template (statement parts)) = some items := by
  induction h with
  | nil => exact List.forall_mem_nil _
  | cons hs _ ih =>
    rw [List.all_cons,Bool.and_eq_true] at hc
    refine List.forall_mem_cons.mpr ⟨?_,ih hc.2⟩
    rw [template,statement,String.toList_ofList,hs.eq_map]
    exact Option.isSome_iff_exists.mp hc.1

structure Script where
  stmts : List (List String)
  lexes : ∀ parts ∈ stmts, ∃ items, lexStatement (template (statement parts)) = some items := by
    exact lexes_of_spelled (by repeat' constructor) (by decide +kernel)

theorem lexStatement_executedText {stmt : String} {items : List Item} (h : lexStatement (template stmt) = some items)
    (hne : s ≠ []) (h0 : '\x00' ∉ s) (hd : ¬['$','$'] <:+: s) :
    lexStatement (plain (executedText stmt (.new s))) = some (items.map (Item.put (schemaToken s))) := by
  obtain ⟨F,hname,htoken⟩ := exists_filler hne h0 hd
  rw [executedText,replaceAll_eq,Schema.new,← hname,← htoken]
  exact lexStatement_fill h

end GraphileWorker.Migrations

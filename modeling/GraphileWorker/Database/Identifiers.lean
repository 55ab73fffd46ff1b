import GraphileWorker.Database.ClaimSql
import GraphileWorker.Foundation.BinarySearch
import Mathlib.Data.String.Basic

/-! # Escaped identifiers

An escaped name is read back as one token: a word that stands for itself, or a quoted
identifier with every quote in it doubled.
-/
namespace GraphileWorker.Database
open Foundation Foundation.Sql Migrations

/-- Texts are compared by their bytes in Rust, which is the order of their characters. -/
def searchKeyword (identifier : List Char) : Except ℕ ℕ :=
  binarySearch keywordsRequiringQuotes (String.ofList identifier)

theorem keywords_increasing : keywordsRequiringQuotes.Pairwise (· < ·) := by
  have hchain : keywordsRequiringQuotes.IsChain (· < ·) :=
    keywords_sorted.imp fun _ _ h => String.lt_iff_toList_lt.mpr h
  exact List.isChain_iff_pairwise.mp hchain

theorem searchKeyword_isOk (s : List Char) : (searchKeyword s).isOk = requiresQuotes s := by
  rw [Bool.eq_iff_iff,searchKeyword,binarySearch_isOk_iff keywords_increasing,requiresQuotes,List.contains_iff_mem]

def Unquoted (s : List Char) : Prop :=
  (∃ c cs, s = c :: cs ∧ isSafeStart c = true ∧ ∀ d ∈ cs, isSafePart d = true) ∧ (searchKeyword s).isOk = false

theorem isSafePart_of_start {c : Char} (h : isSafeStart c = true) : isSafePart c = true := by
  simp only [isSafeStart,isSafePart,Bool.or_eq_true] at h ⊢
  tauto

variable {s rest : List Char}

theorem isSafeIdentifier_iff : isSafeIdentifier s = true ↔ Unquoted s := by
  rw [Unquoted,searchKeyword_isOk]
  constructor
  · intro h
    obtain ⟨c,cs,rfl,hc,hcs,hq⟩ := exists_of_isSafe h
    exact ⟨⟨c,cs,rfl,hc,fun d hd => hcs d (List.mem_cons_of_mem c hd)⟩,hq⟩
  · rintro ⟨⟨c,cs,rfl,hc,hcs⟩,hq⟩
    have hall : (c :: cs).all isSafePart = true :=
      List.all_eq_true.mpr (List.forall_mem_cons.mpr ⟨isSafePart_of_start hc,hcs⟩)
    simp [isSafeIdentifier,hc,hall,hq]

/-- The text up to the closing quote, with its doubled quotes undone, and what follows. -/
def readQuoted : List Char → Option (List Char × List Char)
  | [] => none
  | [c] => if c = '"' then some ([],[]) else none
  | c :: d :: text =>
    if c = '"' then
      if d = '"' then (readQuoted text).map fun p => ('"' :: p.1,p.2) else some ([],d :: text)
    else (readQuoted (d :: text)).map fun p => (c :: p.1,p.2)

/-- The identifier token at the start of a text, and what follows. -/
def readIdentifier : List Char → Option (Token × List Char)
  | [] => none
  | c :: text =>
    if c = '"' then (readQuoted text).map fun p => (.quoted p.1,p.2)
    else if identStart c then some (.word (c :: text.takeWhile identPart),text.dropWhile identPart)
    else none

/-- The name that a token stands for: a word is folded, and no keyword; what is quoted stands as
it is. -/
def denotes : Token → Option (List Char)
  | .word text => if requiresQuotes (text.map Char.toLower) then none else some (text.map Char.toLower)
  | .quoted text => some text
  | _ => none

def EndsToken (rest : List Char) : Prop := ∀ c, rest.head? = some c → c ≠ '"' ∧ identPart c = false

theorem endsToken_nil : EndsToken [] := fun _ h => nomatch h

theorem endsToken_dot (text : List Char) : EndsToken ('.' :: text) := by
  intro c hc
  cases hc
  decide

theorem readQuoted_close (h : EndsToken rest) : readQuoted ('"' :: rest) = some ([],rest) := by
  cases rest with
  | nil => simp [readQuoted]
  | cons d rest => simp [readQuoted,(h d rfl).1]

theorem readQuoted_cons {c : Char} (hc : c ≠ '"') (text : List Char) :
    readQuoted (c :: text) = (readQuoted text).map fun p => (c :: p.1,p.2) := by
  cases text with
  | nil => simp [readQuoted,hc]
  | cons d text => rw [readQuoted,if_neg hc]

theorem readQuoted_doubled (s : List Char) (h : EndsToken rest) :
    readQuoted (doubled s ++ '"' :: rest) = some (s,rest) := by
  induction s with
  | nil => exact readQuoted_close h
  | cons c s ih =>
    by_cases hc : c = '"'
    · have hcons : doubled (c :: s) ++ '"' :: rest = '"' :: '"' :: (doubled s ++ '"' :: rest) := by simp [doubled,hc]
      rw [hcons,readQuoted,if_pos rfl,if_pos rfl,ih,hc]
      rfl
    · have hcons : doubled (c :: s) ++ '"' :: rest = c :: (doubled s ++ '"' :: rest) := by simp [doubled,hc]
      rw [hcons,readQuoted_cons hc,ih]
      rfl

theorem takeWhile_append_of_ends {cs : List Char} (hcs : ∀ d ∈ cs, identPart d = true) (h : EndsToken rest) :
    (cs ++ rest).takeWhile identPart = cs ∧ (cs ++ rest).dropWhile identPart = rest := by
  induction cs with
  | nil =>
    cases rest with
    | nil => exact ⟨rfl,rfl⟩
    | cons d rest => simp [(h d rfl).2]
  | cons c cs ih =>
    obtain ⟨htake,hdrop⟩ := ih fun d hd => hcs d (List.mem_cons_of_mem c hd)
    have hc := hcs c List.mem_cons_self
    simp [hc,htake,hdrop]

theorem readIdentifier_escape (s : List Char) (h : EndsToken rest) :
    readIdentifier (escapeIdentifier s ++ rest) = some (schemaToken s,rest) := by
  by_cases hsafe : isSafeIdentifier s = true
  · obtain ⟨c,cs,rfl,hc,hcs,-⟩ := exists_of_isSafe hsafe
    have hparts : ∀ d ∈ cs, identPart d = true := by
      intro d hd
      simp [identPart,tagPart_of_safe (hcs d (List.mem_cons_of_mem c hd))]
    have hquote : c ≠ '"' := by
      rintro rfl
      exact absurd hc (by decide)
    obtain ⟨htake,hdrop⟩ := takeWhile_append_of_ends hparts h
    rw [escapeIdentifier,if_pos hsafe,schemaToken,if_pos hsafe,List.cons_append,readIdentifier,if_neg hquote,
      if_pos (identStart_of_safe hc),htake,hdrop]
  · have htext : escapeIdentifier s ++ rest = '"' :: (doubled s ++ '"' :: rest) := by
      simp [escapeIdentifier,hsafe,quote]
    rw [htext,readIdentifier,if_pos rfl,readQuoted_doubled s h,schemaToken,if_neg hsafe]
    rfl

theorem denotes_schemaToken (s : List Char) : denotes (schemaToken s) = some s := by
  by_cases hsafe : isSafeIdentifier s = true
  · obtain ⟨c,cs,-,-,hcs,hq⟩ := exists_of_isSafe hsafe
    have hfold : s.map Char.toLower = s :=
      (List.map_congr_left fun d hd => toLower_of_safe (hcs d hd)).trans (List.map_id' s)
    simp [schemaToken,hsafe,denotes,hfold,hq]
  · simp [schemaToken,hsafe,denotes]

theorem lex_escape (hne : s ≠ []) (h0 : '\x00' ∉ s) : lex (plain (escapeIdentifier s)) = some [schemaToken s] := by
  obtain ⟨mode,hread,-,hfinish⟩ := exists_reads hne h0
  rw [lex,hread none rfl]
  simp [hfinish]

theorem eq_of_escape_append {t rest' : List Char} (h : EndsToken rest) (h' : EndsToken rest')
    (heq : escapeIdentifier t ++ rest' = escapeIdentifier s ++ rest) : t = s := by
  have hread := readIdentifier_escape t h'
  rw [heq,readIdentifier_escape s h] at hread
  have htoken : schemaToken s = schemaToken t := (Prod.mk.inj (Option.some.inj hread)).1
  have hname := denotes_schemaToken t
  rw [← htoken,denotes_schemaToken] at hname
  exact (Option.some.inj hname).symm

theorem escapeIdentifier_injective : Function.Injective escapeIdentifier := by
  intro t s heq
  apply eq_of_escape_append endsToken_nil endsToken_nil
  rw [heq]

end GraphileWorker.Database

namespace GraphileWorker.Migrations.Schema

variable (schema : Schema)

def identifier (name : List Char) : List Char := schema.escaped ++ '.' :: escapeIdentifier name

def privateTable (table : List Char) : List Char := schema.identifier ("_private_".toList ++ table)

def function (name : List Char) : List Char := schema.identifier name

end GraphileWorker.Migrations.Schema

namespace GraphileWorker.Database
open Foundation Foundation.Sql Migrations

theorem identifier_ne {s t : List Char} (hne : t ≠ s) (a b : List Char) :
    (Schema.new t).identifier a ≠ (Schema.new s).identifier b :=
  fun heq => hne (eq_of_escape_append (endsToken_dot _) (endsToken_dot _) heq)

theorem key_ne {call call' : ClaimCall} (hne : call.schema ≠ call'.schema) : call.key ≠ call'.key :=
  fun heq => hne (escapeIdentifier_injective (congrArg QueryKey.schema heq))

/-- Every name without NUL is escaped to one token that denotes it; names of different schemas give
different texts and keys. PostgreSQL keeps the first 63 bytes of a name. -/
theorem escaped_identifier_denotes_name {s : List Char} (h0 : '\x00' ∉ s) :
    (∃ token, readIdentifier (escapeIdentifier s) = some (token,[]) ∧ denotes token = some s ∧
      (Unquoted s ∧ token = .word s ∨ ¬Unquoted s ∧ token = .quoted s) ∧
      (s ≠ [] → lex (plain (escapeIdentifier s)) = some [token] ∧ identifierOf token = some (clip nameLimit s))) ∧
    ∀ t, t ≠ s → escapeIdentifier t ≠ escapeIdentifier s ∧
      (∀ a b, (Schema.new t).identifier a ≠ (Schema.new s).identifier b) ∧
      (∀ a b, (Schema.new t).privateTable a ≠ (Schema.new s).privateTable b) ∧
      (∀ a b, (Schema.new t).function a ≠ (Schema.new s).function b) ∧
      ∀ call call' : ClaimCall, call.schema = t → call'.schema = s → call.key ≠ call'.key := by
  constructor
  · have hread := readIdentifier_escape s endsToken_nil
    rw [List.append_nil] at hread
    refine ⟨schemaToken s,hread,denotes_schemaToken s,?_,fun hne => ⟨lex_escape hne h0,identifierOf_schemaToken s⟩⟩
    by_cases hsafe : isSafeIdentifier s = true
    · exact .inl ⟨isSafeIdentifier_iff.mp hsafe,if_pos hsafe⟩
    · exact .inr ⟨fun h => hsafe (isSafeIdentifier_iff.mpr h),if_neg hsafe⟩
  · intro t hne
    refine ⟨fun heq => hne (escapeIdentifier_injective heq),identifier_ne hne,fun a b => identifier_ne hne _ _,
      identifier_ne hne,?_⟩
    rintro call call' rfl rfl
    exact key_ne hne

theorem quote_in_name_denoted : (∃ token, readIdentifier (escapeIdentifier ['a','"']) = some (token,[]) ∧
      denotes token = some ['a','"']) ∧
    escapeIdentifier ['a','"','"'] ≠ escapeIdentifier ['a','"'] := by
  have hname := escaped_identifier_denotes_name (s := ['a','"']) (by decide)
  obtain ⟨⟨token,hread,hdenotes,-,-⟩,hothers⟩ := hname
  exact ⟨⟨token,hread,hdenotes⟩,(hothers ['a','"','"'] (by decide)).1⟩

end GraphileWorker.Database

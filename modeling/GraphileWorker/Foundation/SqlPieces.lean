import GraphileWorker.Foundation.SqlLexer
import Mathlib.Tactic.IntervalCases

/-! # SQL texts put together from pieces

If the fixed parts lex on their own, the name stands after a blank and before a dot and no
word runs into the next piece, the text lexes piece by piece.
-/
namespace GraphileWorker.Foundation.Sql
variable {ρ : Type} {rest : List Token} {g : Option (List Char)}

/-- A part of a text; a parameter is there for some role. -/
inductive Piece (ρ : Type)
  | text (lit : List Char)
  | name
  | param (ordinal : ℕ) (role : ρ)

def ordinalChars (ordinal : ℕ) : List Char := Nat.toDigits 10 ordinal

def Piece.chars (name : List Char) : Piece ρ → List Char
  | .text lit => lit
  | .name => name
  | .param ordinal _ => '$' :: ordinalChars ordinal

def render (name : List Char) (pieces : List (Piece ρ)) : List Char := pieces.flatMap (Piece.chars name)

def textTokens (lit : List Char) : List Token := (lex (plain lit)).getD []

def Piece.tokens (t : Token) : Piece ρ → List Token
  | .text lit => textTokens lit
  | .name => [t]
  | .param ordinal _ => .symbol '$' :: (ordinalChars ordinal).map .symbol

inductive Before
  | blank
  | other
  | word
  | name
  | param
  deriving DecidableEq

/-- What a fixed part leaves, if it lexes on its own. -/
def afterText (lit : List Char) : Option Before :=
  match read (.normal none) (plain lit) with
  | some (.normal prev,_) => some (if mayPrecede prev then .blank else .other)
  | some (.word _,_) => some .word
  | _ => none

/-- The first character of a fixed part that may come next. -/
def Before.admits (b : Before) (c : Char) : Bool :=
  match b with
  | .blank | .other => c != '"' && c != '\''
  | .word | .param => c != '"' && c != '\'' && !identPart c
  | .name => c == '.'

def passPiece (b : Before) : Piece ρ → Option Before
  | .text lit => if lit.head?.any b.admits then afterText lit else none
  | .name => if b = .blank then some .name else none
  | .param _ _ => if b = .blank ∨ b = .other then some .param else none

def passes : Before → List (Piece ρ) → Option Before
  | b, [] => some b
  | b, p :: rest => (passPiece b p).bind fun next => passes next rest

inductive AtPiece (nameMode : Mode) : Before → Mode → Prop
  | blank {prev : Option Char} (h : mayPrecede prev = true) : AtPiece nameMode .blank (.normal prev)
  | other {prev : Option Char} : AtPiece nameMode .other (.normal prev)
  | word {acc : List Char} : AtPiece nameMode .word (.word acc)
  | name : AtPiece nameMode .name nameMode
  | param {prev : Option Char} : AtPiece nameMode .param (.normal prev)

def pending (m : Mode) : List Token := (finish m).getD []

variable {m nameMode : Mode} {prev : Option Char} {name lit : List Char} {t : Token} {ts : List Token} {c : Char}

theorem mem_digits (h : c.isDigit = true) : c ∈ ['0','1','2','3','4','5','6','7','8','9'] := by
  have hbounds : 48 ≤ c.toNat ∧ c.toNat ≤ 57 := by
    simp only [Char.isDigit,Bool.and_eq_true,decide_eq_true_eq] at h
    exact ⟨h.1,h.2⟩
  obtain ⟨hlo,hhi⟩ := hbounds
  have hc : c = Char.ofNat c.toNat := (Char.ofNat_toNat c).symm
  generalize c.toNat = k at hlo hhi hc
  subst hc
  interval_cases k <;> decide

theorem enter_digit (h : c.isDigit = true) : enter prev c = some (.normal (some c),[.symbol c]) := by
  have hall : (['0','1','2','3','4','5','6','7','8','9'].all fun d => !identStart d && d != '"' && d != '\'' &&
      d != '-' && d != '/' && d != '$' && d != '\x00') = true := by decide
  have hc := List.all_eq_true.mp hall c (mem_digits h)
  simp only [Bool.and_eq_true,Bool.not_eq_true',bne_iff_ne] at hc
  obtain ⟨⟨⟨⟨⟨⟨hstart,hd⟩,hs⟩,hdash⟩,hslash⟩,hdollar⟩,hnul⟩ := hc
  simp [enter,hstart,hd,hs,hdash,hslash,hdollar,hnul]

theorem step_dollar_digit (h : c.isDigit = true) :
    step (.dollar []) (some c) = some (.normal (some c),[.symbol '$',.symbol c]) := by
  have hall : (['0','1','2','3','4','5','6','7','8','9'].all fun d => !identStart d && d != '$') = true := by decide
  have hc := List.all_eq_true.mp hall c (mem_digits h)
  simp only [Bool.and_eq_true,Bool.not_eq_true',bne_iff_ne] at hc
  obtain ⟨hstart,hdollar⟩ := hc
  simp [step,after,enter_digit h,hstart,hdollar]

theorem read_digits {ds : List Char} (prev : Option Char) (h : ∀ d ∈ ds, d.isDigit = true) :
    ∃ last, read (.normal prev) (plain ds) = some (.normal last,ds.map .symbol) := by
  induction ds generalizing prev with
  | nil => exact ⟨prev,rfl⟩
  | cons d ds ih =>
    obtain ⟨hd,hds⟩ := List.forall_mem_cons.mp h
    obtain ⟨last,hlast⟩ := ih (some d) hds
    have hone : step (.normal prev) (some d) = some (.normal (some d),[.symbol d]) := enter_digit hd
    exact ⟨last,read_cons_of hone hlast⟩

theorem read_param (prev : Option Char) (ordinal : ℕ) : ∃ last,
    read (.normal prev) (plain ('$' :: ordinalChars ordinal)) =
      some (.normal last,.symbol '$' :: (ordinalChars ordinal).map .symbol) := by
  have hall : ∀ d ∈ ordinalChars ordinal, d.isDigit = true :=
    fun d hd => Nat.isDigit_of_mem_toDigits (by decide) (by decide) hd
  cases hk : ordinalChars ordinal with
  | nil => exact absurd hk Nat.toDigits_ne_nil
  | cons d ds =>
    rw [hk] at hall
    obtain ⟨hd,hds⟩ := List.forall_mem_cons.mp hall
    obtain ⟨last,hlast⟩ := read_digits (some d) hds
    have hdollar : step (.normal prev) (some '$') = some (.dollar [],[]) := rfl
    exact ⟨last,read_cons_of hdollar (read_cons_of (step_dollar_digit hd) hlast)⟩

theorem read_from {us : List Token} (lit : List Char)
    (hstep : step m (some c) = (enter none c).map fun p => (p.1,us ++ p.2)) :
    read m (plain (c :: lit)) = (read (.normal none) (plain (c :: lit))).map fun p => (p.1,us ++ p.2) := by
  have hnormal : step (.normal none) (some c) = enter none c := rfl
  simp only [plain,List.map_cons,read,hstep,hnormal]
  cases enter none c with
  | none => rfl
  | some p => simp [Function.comp_def]

theorem enter_eq (hd : c ≠ '"') (hs : c ≠ '\'') : enter prev c = enter none c := by
  simp [enter,hd,hs]

section Reading
variable (hreads : ∀ prev, mayPrecede prev = true → read (.normal prev) (plain name) = some (nameMode,[]))
  (hq : step nameMode (some '.') = some (.normal (some '.'),[t,.symbol '.'])) (hfin : finish nameMode = some [t])
  {b b' : Before} {pieces : List (Piece ρ)}

include hq hfin in
theorem step_admitted (hat : AtPiece nameMode b m) (hc : b.admits c = true) :
    step m (some c) = (enter none c).map fun p => (p.1,pending m ++ p.2) := by
  cases hat with
  | @blank prev | @other prev =>
    have hne : c ≠ '"' ∧ c ≠ '\'' := by simpa [Before.admits] using hc
    have henter : step (.normal prev) (some c) = enter none c := enter_eq hne.1 hne.2
    rw [henter]
    exact (Option.map_id' ..).symm
  | @word acc =>
    have hne : (c ≠ '"' ∧ c ≠ '\'') ∧ identPart c = false := by simpa [Before.admits] using hc
    simp only [step,hne.2,hne.1.2]
    rfl
  | name =>
    have hdot : c = '.' := by simpa [Before.admits] using hc
    subst hdot
    rw [hq,pending,hfin]
    rfl
  | @param prev =>
    have hne : (c ≠ '"' ∧ c ≠ '\'') ∧ identPart c = false := by simpa [Before.admits] using hc
    have henter : step (.normal prev) (some c) = enter none c := enter_eq hne.1.1 hne.1.2
    rw [henter]
    exact (Option.map_id' ..).symm

variable (nameMode) in
theorem read_of_afterText {next : Before} (h : afterText lit = some next) :
    ∃ m' us, read (.normal none) (plain lit) = some (m',us) ∧ AtPiece nameMode next m' ∧
      us ++ pending m' = textTokens lit := by
  unfold afterText at h
  split at h
  · next last us hread =>
    cases h
    refine ⟨_,us,hread,?_,?_⟩
    · split
      · next hl => exact .blank hl
      · exact .other
    · simp [textTokens,lex,hread,pending,finish]
  · next acc us hread =>
    cases h
    exact ⟨_,us,hread,.word,by simp [textTokens,lex,hread,pending,finish]⟩
  · cases h

include hreads hq hfin in
theorem read_pass {p : Piece ρ} (hpass : passPiece b p = some b') (hat : AtPiece nameMode b m) :
    ∃ m' us, read m (plain (p.chars name)) = some (m',us) ∧ AtPiece nameMode b' m' ∧
      us ++ pending m' = pending m ++ p.tokens t := by
  cases p with
  | text lit =>
    simp only [passPiece] at hpass
    split at hpass
    · next hhead =>
      obtain ⟨m',us,hread,hat',hus⟩ := read_of_afterText nameMode hpass
      cases lit with
      | nil => cases hhead
      | cons c cs =>
        have hfrom := read_from cs (step_admitted hq hfin hat hhead)
        rw [hread] at hfrom
        refine ⟨m',pending m ++ us,hfrom,hat',?_⟩
        rw [List.append_assoc,hus]
        rfl
    · cases hpass
  | name =>
    simp only [passPiece] at hpass
    split at hpass
    · next hb =>
      subst hb
      cases hpass
      cases hat with
      | blank hprev =>
        refine ⟨nameMode,[],hreads _ hprev,.name,?_⟩
        rw [pending,hfin]
        rfl
    · cases hpass
  | param ordinal role =>
    simp only [passPiece] at hpass
    split at hpass
    · next hb =>
      cases hpass
      have hnormal : ∃ prev, m = .normal prev := by
        cases hat with
        | blank | other => exact ⟨_,rfl⟩
        | word | name | param => simp at hb
      obtain ⟨prev,rfl⟩ := hnormal
      obtain ⟨last,hlast⟩ := read_param prev ordinal
      exact ⟨_,_,hlast,.param,by simp [pending,finish,Piece.tokens]⟩
    · cases hpass

theorem render_cons (name : List Char) (p : Piece ρ) (rest : List (Piece ρ)) :
    plain (render name (p :: rest)) = plain (p.chars name) ++ plain (render name rest) := by
  simp [render,plain]

include hreads hq hfin in
theorem read_render (hpasses : passes b pieces = some b') (hat : AtPiece nameMode b m) :
    ∃ m' us, read m (plain (render name pieces)) = some (m',us) ∧ AtPiece nameMode b' m' ∧
      us ++ pending m' = pending m ++ pieces.flatMap (Piece.tokens t) := by
  induction pieces generalizing b m with
  | nil =>
    cases hpasses
    exact ⟨m,[],rfl,hat,by simp⟩
  | cons p rest ih =>
    obtain ⟨next,hnext,hrest⟩ := Option.bind_eq_some_iff.mp hpasses
    obtain ⟨m₁,us,hread,hat₁,hus⟩ := read_pass hreads hq hfin hnext hat
    obtain ⟨m',vs,hread',hat',hvs⟩ := ih hrest hat₁
    refine ⟨m',us ++ vs,?_,hat',?_⟩
    · rw [render_cons]
      exact read_append_of hread hread'
    · rw [List.append_assoc,hvs,← List.append_assoc,hus,List.append_assoc,List.flatMap_cons]

include hreads hq hfin in
theorem lex_render (hpasses : passes .blank pieces = some b) :
    lex (plain (render name pieces)) = some (pieces.flatMap (Piece.tokens t)) := by
  have hstart : AtPiece nameMode .blank (.normal none) := .blank rfl
  obtain ⟨m',us,hread,hat,hus⟩ := read_render hreads hq hfin hpasses hstart
  have hfinish : finish m' = some (pending m') := by
    cases hat with
    | blank | other | word | param => rfl
    | name => rw [pending,hfin]; rfl
  have hpending : pending (.normal none) = [] := rfl
  rw [hpending,List.nil_append] at hus
  simp [lex,hread,hfinish,hus]

end Reading

/-- The number of a parameter whose digits have been read. -/
def endedOrdinal : Option (List Char) → List ℕ
  | none => []
  | some digits => [Nat.ofDigitChars 10 digits 0]

/-- The numbers of the parameters among some tokens, after the digits of one that has begun. -/
def ordinalsFrom : Option (List Char) → List Token → List ℕ
  | g, [] => endedOrdinal g
  | g, .symbol c :: ts =>
    if c.isDigit then ordinalsFrom (g.map (· ++ [c])) ts
    else endedOrdinal g ++ ordinalsFrom (if c = '$' then some [] else none) ts
  | g, _ :: ts => endedOrdinal g ++ ordinalsFrom none ts

def ordinals (ts : List Token) : List ℕ := ordinalsFrom none ts

def Piece.place : Piece ρ → Option (ℕ × ρ)
  | .param ordinal role => some (ordinal,role)
  | _ => none

def isDollarToken : Token → Bool
  | .symbol c => c == '$'
  | _ => false

def isDigitToken : Token → Bool
  | .symbol c => c.isDigit
  | _ => false

/-- Tokens without a parameter, the first of which ends one that stands before them. -/
def separate (ts : List Token) : Bool := !ts.head?.all isDigitToken && !ts.any isDollarToken

theorem ordinalsFrom_none (h : ts.any isDollarToken = false) :
    ordinalsFrom none (ts ++ rest) = ordinalsFrom none rest := by
  induction ts with
  | nil => rfl
  | cons t ts ih =>
    simp only [List.any_cons,Bool.or_eq_false_iff] at h
    rw [List.cons_append,← ih h.2]
    cases t with
    | symbol c =>
      have hc : c ≠ '$' := by simpa [isDollarToken] using h.1
      rw [ordinalsFrom,if_neg hc]
      split
      · rfl
      · rfl
    | word | quoted | hole | string | comment | body | tagged => rfl

theorem ordinalsFrom_separate (h : separate ts = true) :
    ordinalsFrom g (ts ++ rest) = endedOrdinal g ++ ordinalsFrom none rest := by
  simp only [separate,Bool.and_eq_true,Bool.not_eq_true'] at h
  cases ts with
  | nil => simp at h
  | cons t ts =>
    have hrest : ordinalsFrom none (ts ++ rest) = ordinalsFrom none rest := by
      apply ordinalsFrom_none
      simp only [List.any_cons,Bool.or_eq_false_iff] at h
      exact h.2.2
    rw [List.cons_append,← hrest]
    cases t with
    | symbol c =>
      have hdigit : c.isDigit = false := by simpa [isDigitToken] using h.1
      have hdollar : c ≠ '$' := by
        intro hc
        simp [isDollarToken,hc] at h
      rw [ordinalsFrom,hdigit,if_neg hdollar]
      rfl
    | word | quoted | hole | string | comment | body | tagged => rfl

theorem ordinalsFrom_digits {digits ds : List Char} (h : ∀ d ∈ ds, d.isDigit = true) :
    ordinalsFrom (some digits) (ds.map .symbol ++ rest) = ordinalsFrom (some (digits ++ ds)) rest := by
  induction ds generalizing digits with
  | nil => simp
  | cons d ds ih =>
    obtain ⟨hd,hds⟩ := List.forall_mem_cons.mp h
    rw [List.map_cons,List.cons_append,ordinalsFrom,if_pos hd,Option.map_some,ih hds,List.append_assoc]
    rfl

theorem ordinalsFrom_pieces {pieces : List (Piece ρ)} (ht : separate [t] = true)
    (h : ∀ lit, .text lit ∈ pieces → separate (textTokens lit) = true) :
    ordinalsFrom g (pieces.flatMap (Piece.tokens t)) =
      endedOrdinal g ++ (pieces.filterMap Piece.place).map Prod.fst := by
  induction pieces generalizing g with
  | nil => simp [ordinalsFrom]
  | cons p rest ih =>
    have hrest : ∀ lit, .text lit ∈ rest → separate (textTokens lit) = true :=
      fun lit hlit => h lit (List.mem_cons_of_mem p hlit)
    rw [List.flatMap_cons]
    cases p with
    | text lit =>
      rw [Piece.tokens,ordinalsFrom_separate (h lit List.mem_cons_self),ih hrest]
      rfl
    | name =>
      rw [Piece.tokens,ordinalsFrom_separate ht,ih hrest]
      rfl
    | param ordinal role =>
      have hdigits : ∀ d ∈ ordinalChars ordinal, d.isDigit = true :=
        fun d hd => Nat.isDigit_of_mem_toDigits (by decide) (by decide) hd
      have hdollar : ('$').isDigit = false := by decide
      have hnumber : endedOrdinal (some (ordinalChars ordinal)) = [ordinal] :=
        congrArg (fun n => [n]) Nat.ofDigitChars_ten_toDigits
      rw [Piece.tokens,List.cons_append,ordinalsFrom,hdollar,if_pos rfl,ordinalsFrom_digits hdigits,
        List.nil_append,ih hrest,hnumber]
      rfl

end GraphileWorker.Foundation.Sql

import Mathlib.Data.List.Chain
import Mathlib.Tactic.Common

/-! # Lexing an SQL text with holes

A text is a list of cells: characters, and holes that a name will be written into. What is
between two `$$` is lexed once more, as the text of a function. A hole may stand where a name may
begin, right before a dot, and writing a name in then changes no token but the holes.
-/
namespace GraphileWorker.Foundation.Sql

abbrev Cell := Option Char

def plain (text : List Char) : List Cell := text.map some

inductive Token
  | word (text : List Char)
  | quoted (text : List Char)
  | hole
  | string (text : List Char)
  | comment (text : List Char)
  /-- Between two `$$`. -/
  | body (text : List Cell)
  /-- Between two `$tag$`. -/
  | tagged (tag text : List Char)
  | symbol (c : Char)
  deriving DecidableEq

/-- What has been read of the token at hand, the last character first. -/
inductive Mode
  | normal (prev : Option Char)
  | filled
  | word (acc : List Char)
  | quoted (acc : List Char)
  | quotedEnd (acc : List Char)
  | string (acc : List Char)
  | stringEnd (acc : List Char)
  | dash
  | slash
  | lineComment (acc : List Char)
  | blockComment (depth : ℕ) (prev : Option Char) (acc : List Char)
  | dollar (tag : List Char)
  | body (acc : List Cell)
  | tagged (tag acc : List Char)

def blanks : List Char := [' ','\n','\t','\r','\x0b','\x0c']

def isBlank (c : Char) : Bool := blanks.contains c

def identStart (c : Char) : Bool := c.isAlpha || c == '_' || decide (128 ≤ c.toNat)

def tagPart (c : Char) : Bool := identStart c || c.isDigit

def identPart (c : Char) : Bool := tagPart c || c == '$'

/-- A character where a token begins. Identifiers and constants with a prefix (`U&`, `E`)
are not lexed. -/
def enter (prev : Option Char) (c : Char) : Option (Mode × List Token) :=
  if identStart c then some (.word [c],[])
  else if c = '"' then if prev = some '&' then none else some (.quoted [],[])
  else if c = '\'' then if prev = some '&' then none else some (.string [],[])
  else if c = '-' then some (.dash,[])
  else if c = '/' then some (.slash,[])
  else if c = '$' then some (.dollar [],[])
  else if c = '\x00' then none
  else some (.normal (some c),[.symbol c])

/-- The token `t` ended before `c`. -/
def after (t : Token) (c : Char) : Option (Mode × List Token) := (enter none c).map fun p => (p.1,t :: p.2)

/-- A name may begin after a blank or a colon. -/
def mayPrecede (prev : Option Char) : Bool := prev.all fun c => isBlank c || c == ':'

def step : Mode → Cell → Option (Mode × List Token)
  | .normal prev, none => if mayPrecede prev then some (.filled,[]) else none
  | .normal prev, some c => enter prev c
  | .filled, some c => if c = '.' then some (.normal (some '.'),[.hole,.symbol '.']) else none
  | .word acc, some c =>
    if identPart c then some (.word (c :: acc),[])
    else if c = '\'' then none
    else after (.word acc.reverse) c
  | .quoted acc, some c =>
    if c = '"' then some (.quotedEnd acc,[])
    else if c = '\x00' then none
    else some (.quoted (c :: acc),[])
  | .quotedEnd acc, some c =>
    if c = '"' then some (.quoted ('"' :: acc),[])
    else if acc.isEmpty then none
    else after (.quoted acc.reverse) c
  | .string acc, some c =>
    if c = '\'' then some (.stringEnd acc,[])
    else if c = '\x00' then none
    else some (.string (c :: acc),[])
  | .stringEnd acc, some c =>
    if c = '\'' then some (.string ('\'' :: acc),[]) else after (.string acc.reverse) c
  | .dash, some c => if c = '-' then some (.lineComment [],[]) else after (.symbol '-') c
  | .slash, some c => if c = '*' then some (.blockComment 0 none [],[]) else after (.symbol '/') c
  | .lineComment acc, some c =>
    if c = '\n' ∨ c = '\r' then some (.normal (some c),[.comment acc.reverse,.symbol c])
    else if c = '\x00' then none
    else some (.lineComment (c :: acc),[])
  | .blockComment depth prev acc, some c =>
    if c = '\x00' then none
    else if prev = some '*' ∧ c = '/' then
      match depth with
      | 0 => some (.normal none,[.comment (acc.drop 1).reverse])
      | depth + 1 => some (.blockComment depth none (c :: acc),[])
    else if prev = some '/' ∧ c = '*' then some (.blockComment (depth + 1) none (c :: acc),[])
    else some (.blockComment depth (some c) (c :: acc),[])
  | .dollar tag, some c =>
    if c = '$' then some (if tag.isEmpty then .body [] else .tagged tag.reverse [],[])
    else if (if tag.isEmpty then identStart c else tagPart c) then some (.dollar (c :: tag),[])
    else if tag.isEmpty then after (.symbol '$') c
    else none
  | .body acc, none => some (.body (none :: acc),[])
  | .body acc, some c =>
    if c = '\x00' then none
    else if c = '$' ∧ acc.head? = some (some '$') then some (.normal (some '$'),[.body acc.tail.reverse])
    else some (.body (some c :: acc),[])
  | .tagged tag acc, some c =>
    if c = '\x00' then none
    else if c = '$' ∧ tag.reverse ++ ['$'] <+: acc then
      some (.normal (some '$'),[.tagged tag (acc.drop (tag.length + 1)).reverse])
    else some (.tagged tag (c :: acc),[])
  | _, none => none

/-- The end of the text; `none` inside a quoted part. -/
def finish : Mode → Option (List Token)
  | .normal _ => some []
  | .word acc => some [.word acc.reverse]
  | .quotedEnd acc => if acc.isEmpty then none else some [.quoted acc.reverse]
  | .stringEnd acc => some [.string acc.reverse]
  | .dash => some [.symbol '-']
  | .slash => some [.symbol '/']
  | .lineComment acc => some [.comment acc.reverse]
  | .dollar tag => if tag.isEmpty then some [.symbol '$'] else none
  | _ => none

def read : Mode → List Cell → Option (Mode × List Token)
  | m, [] => some (m,[])
  | m, c :: cells => (step m c).bind fun p => (read p.1 cells).map fun q => (q.1,p.2 ++ q.2)

def lex (cells : List Cell) : Option (List Token) :=
  (read (.normal none) cells).bind fun p => (finish p.1).map fun last => p.2 ++ last

def Token.settled : Token → Bool
  | .body text => text.all Option.isSome
  | _ => true

/-- A token of a statement, with the tokens of a dollar-quoted body. -/
inductive Item
  | token (t : Token)
  | body (tag : List Char) (tokens : List Token)

/-- A body within a body stays as it is. -/
def lexBody (tag : List Char) (text : List Cell) : Option Item :=
  (lex text).bind fun ts => if ts.all Token.settled then some (.body tag ts) else none

def lexItem : Token → Option Item
  | .body text => lexBody [] text
  | .tagged tag text => lexBody tag (plain text)
  | t => some (.token t)

def lexItems : List Token → Option (List Item)
  | [] => some []
  | t :: ts => (lexItem t).bind fun i => (lexItems ts).map fun is => i :: is

def lexStatement (cells : List Cell) : Option (List Item) := (lex cells).bind lexItems

theorem read_append (m : Mode) (xs ys : List Cell) :
    read m (xs ++ ys) = (read m xs).bind fun p => (read p.1 ys).map fun q => (q.1,p.2 ++ q.2) := by
  induction xs generalizing m with
  | nil => simp [read]
  | cons c xs ih =>
    simp only [List.cons_append,read,ih,Option.bind_assoc,Option.map_bind,Option.bind_map]
    refine congrArg _ (funext fun p => congrArg _ (funext fun q => ?_))
    simp [Function.comp_def]

theorem read_append_of {m m' m'' : Mode} {xs ys : List Cell} {ts us : List Token} (hx : read m xs = some (m',ts))
    (hy : read m' ys = some (m'',us)) : read m (xs ++ ys) = some (m'',ts ++ us) := by
  simp [read_append,hx,hy]

theorem read_cons_of {m m' m'' : Mode} {c : Cell} {cells : List Cell} {ts us : List Token}
    (hc : step m c = some (m',ts)) (hcells : read m' cells = some (m'',us)) :
    read m (c :: cells) = some (m'',ts ++ us) := by
  simp [read,hc,hcells]

theorem read_singleton (m : Mode) (c : Cell) : read m [c] = step m c := by
  cases h : step m c <;> simp [read,h]

def fillWith (name : List Char) (cells : List Cell) : List Char :=
  cells.flatMap fun c => c.elim name fun c => [c]

/-- Replaces the matches of `pat` from left to right; `skip` more characters belong to the last one. -/
def replaceAll (pat name : List Char) : (skip : ℕ) → List Char → List Char
  | _, [] => []
  | skip + 1, _ :: text => replaceAll pat name skip text
  | 0, c :: text =>
    if pat.isPrefixOf (c :: text) then name ++ replaceAll pat name (pat.length - 1) text
    else c :: replaceAll pat name 0 text

def holes (first : Char) (rest : List Char) : (skip : ℕ) → List Char → List Cell
  | _, [] => []
  | skip + 1, _ :: text => holes first rest skip text
  | 0, c :: text =>
    if c = first then
      if rest.isPrefixOf text then none :: holes first rest rest.length text
      else some c :: holes first rest 0 text
    else some c :: holes first rest 0 text

theorem replaceAll_eq (first : Char) (rest name : List Char) (skip : ℕ) (text : List Char) :
    replaceAll (first :: rest) name skip text = fillWith name (holes first rest skip text) := by
  fun_induction holes first rest skip text with
  | case1 => simp [replaceAll,fillWith]
  | case2 skip c text ih => rw [replaceAll,ih]
  | case3 text hp ih =>
    have hpat : (first :: rest).isPrefixOf (first :: text) = true := by simp [List.isPrefixOf,hp]
    rw [replaceAll,if_pos hpat,List.length_cons,Nat.add_sub_cancel,ih]
    simp [fillWith]
  | case4 text hp ih =>
    have hpat : ¬(first :: rest).isPrefixOf (first :: text) = true := by simp [List.isPrefixOf,hp]
    rw [replaceAll,if_neg hpat,ih]
    simp [fillWith]
  | case5 c text hc ih =>
    have hpat : ¬(first :: rest).isPrefixOf (c :: text) = true := by simp [List.isPrefixOf,Ne.symm hc]
    rw [replaceAll,if_neg hpat,ih]
    simp [fillWith]

def Token.isName : Token → Bool
  | .word _ => true
  | .quoted _ => true
  | _ => false

/-- A name that can be written into the holes, and the token it becomes. -/
structure Filler where
  name : List Char
  token : Token
  mode : Mode
  reads : ∀ prev, mayPrecede prev = true → read (.normal prev) (plain name) = some (mode,[])
  qualifies : step mode (some '.') = some (.normal (some '.'),[token,.symbol '.'])
  inBody : ∀ acc, read (.body acc) (plain name) = some (.body ((plain name).reverse ++ acc),[])
  last : ∃ c, name.getLast? = some c ∧ c ≠ '$'
  named : token.isName = true

def Token.put (t : Token) : Token → Token
  | .hole => t
  | u => u

def Item.put (t : Token) : Item → Item
  | .token u => .token (Token.put t u)
  | .body tag ts => .body tag (ts.map (Token.put t))

variable (F : Filler) {acc cells : List Cell} {p : Mode × List Token} {items : List Item} {text : List Char}

def fillAcc (acc : List Cell) : List Cell := (plain (fillWith F.name acc.reverse)).reverse

def Mode.fill : Mode → Mode
  | .filled => F.mode
  | .body acc => .body (fillAcc F acc)
  | m => m

def Token.fill : Token → Token
  | .hole => F.token
  | .body text => .body (plain (fillWith F.name text))
  | t => t

variable {F} {m m' : Mode} {prev : Option Char} {c : Char} {t : Token} {ts : List Token}

@[simp]
theorem fillAcc_nil : fillAcc F [] = [] := rfl

@[simp]
theorem fillAcc_some (acc : List Cell) : fillAcc F (some c :: acc) = some c :: fillAcc F acc := by
  simp [fillAcc,fillWith,plain]

@[simp]
theorem fillAcc_none (acc : List Cell) : fillAcc F (none :: acc) = (plain F.name).reverse ++ fillAcc F acc := by
  simp [fillAcc,fillWith,plain]

/-- A name does not end in a dollar sign, so it closes no body with the one after it. -/
theorem fillAcc_head (acc : List Cell) :
    (fillAcc F acc).head? = some (some '$') ↔ acc.head? = some (some '$') := by
  cases acc with
  | nil => simp
  | cons d acc =>
    cases d with
    | some d => simp
    | none =>
      obtain ⟨c,hc,hne⟩ := F.last
      simp [plain,List.head?_append,hc,hne]

theorem fillAcc_tail (h : acc.head? = some (some '$')) : (fillAcc F acc).tail = fillAcc F acc.tail := by
  cases acc with
  | nil => cases h
  | cons d acc =>
    cases d with
    | some d => simp
    | none => simp at h

theorem reverse_fillAcc (acc : List Cell) : (fillAcc F acc).reverse = plain (fillWith F.name acc.reverse) := by
  simp [fillAcc]

/-- What writing names in leaves as it is: `m` and the tokens `ts`. -/
def Fixed (F : Filler) (p : Mode × List Token) : Prop := p.1.fill F = p.1 ∧ p.2.map (Token.fill F) = p.2

theorem enter_fixed (h : enter prev c = some p) : Fixed F p := by
  unfold enter at h
  repeat' split at h
  all_goals first
    | cases h; exact ⟨rfl,rfl⟩
    | cases h

theorem after_fixed (ht : t.fill F = t) (h : after t c = some p) : Fixed F p := by
  obtain ⟨q,hq,rfl⟩ := Option.map_eq_some_iff.mp h
  obtain ⟨hm,hts⟩ := enter_fixed (F := F) hq
  refine ⟨hm,?_⟩
  rw [List.map_cons,ht,hts]

theorem step_fixed (hf : m ≠ .filled) (hb : ∀ acc, m ≠ .body acc) (h : step m (some c) = some p) : Fixed F p := by
  cases m with
  | filled => exact absurd rfl hf
  | body acc => exact absurd rfl (hb acc)
  | normal prev => exact enter_fixed h
  | word acc | quotedEnd acc | stringEnd acc | dash | slash =>
    simp only [step] at h
    repeat' split at h
    all_goals first
      | cases h; exact ⟨rfl,rfl⟩
      | cases h
      | exact after_fixed rfl h
  | quoted acc | string acc | lineComment acc | tagged tag acc | blockComment depth prev acc =>
    simp only [step] at h
    repeat' split at h
    all_goals first
      | cases h; exact ⟨rfl,rfl⟩
      | cases h
  | dollar tag =>
    simp only [step] at h
    by_cases hc : c = '$'
    · rw [if_pos hc] at h
      cases h
      cases tag <;> exact ⟨rfl,rfl⟩
    · rw [if_neg hc] at h
      repeat' split at h
      all_goals first
        | cases h; exact ⟨rfl,rfl⟩
        | cases h
        | exact after_fixed rfl h

theorem step_body (h : step (.body acc) (some c) = some (m',ts)) :
    step (.body (fillAcc F acc)) (some c) = some (m'.fill F,ts.map (Token.fill F)) := by
  simp only [step] at h ⊢
  by_cases h0 : c = '\x00'
  · rw [if_pos h0] at h
    cases h
  rw [if_neg h0] at h ⊢
  by_cases hc : c = '$' ∧ acc.head? = some (some '$')
  · rw [if_pos hc] at h
    cases h
    rw [if_pos ⟨hc.1,(fillAcc_head acc).mpr hc.2⟩,fillAcc_tail hc.2,reverse_fillAcc]
    rfl
  · rw [if_neg hc] at h
    cases h
    rw [if_neg fun hc' => hc ⟨hc'.1,(fillAcc_head acc).mp hc'.2⟩]
    simp [Mode.fill]

theorem read_cell {cell : Cell} (h : step m cell = some (m',ts)) :
    read (m.fill F) (plain (fillWith F.name [cell])) = some (m'.fill F,ts.map (Token.fill F)) := by
  cases cell with
  | some c =>
    rw [show plain (fillWith F.name [some c]) = [some c] from rfl,read_singleton]
    cases m with
    | body acc => exact step_body h
    | filled =>
      simp only [step] at h
      split at h <;> cases h
      subst c
      exact F.qualifies
    | _ =>
      obtain ⟨hm,hts⟩ := step_fixed (F := F) (by nofun) (by nofun) h
      rw [hm,hts]
      exact h
  | none =>
    have hname : plain (fillWith F.name [none]) = plain F.name := by simp [fillWith]
    rw [hname]
    cases m with
    | normal prev =>
      simp only [step] at h
      split at h <;> cases h
      exact F.reads prev ‹_›
    | body acc =>
      cases h
      simpa [Mode.fill] using F.inBody (fillAcc F acc)
    | _ => cases h

theorem fillWith_cons (name : List Char) (c : Cell) (cells : List Cell) :
    plain (fillWith name (c :: cells)) = plain (fillWith name [c]) ++ plain (fillWith name cells) := by
  simp [fillWith,plain]

theorem read_fill (h : read m cells = some (m',ts)) :
    read (m.fill F) (plain (fillWith F.name cells)) = some (m'.fill F,ts.map (Token.fill F)) := by
  induction cells generalizing m ts with
  | nil =>
    cases h
    rfl
  | cons c cells ih =>
    simp only [read,Option.bind_eq_some_iff,Option.map_eq_some_iff,Prod.mk.injEq] at h
    obtain ⟨⟨m₁,us⟩,hstep,⟨_,vs⟩,hread,rfl,rfl⟩ := h
    rw [fillWith_cons,List.map_append]
    exact read_append_of (read_cell hstep) (ih hread)

theorem finish_fill (h : finish m = some ts) : finish (m.fill F) = some (ts.map (Token.fill F)) := by
  cases m with
  | normal | word | stringEnd | dash | slash | lineComment =>
    cases h
    rfl
  | quotedEnd acc | dollar acc =>
    simp only [finish] at h
    split at h <;> cases h
    rename_i hacc
    simp [Mode.fill,finish,Token.fill,hacc]
  | _ => cases h

theorem lex_fill (h : lex cells = some ts) :
    lex (plain (fillWith F.name cells)) = some (ts.map (Token.fill F)) := by
  simp only [lex,Option.bind_eq_some_iff,Option.map_eq_some_iff] at h
  obtain ⟨⟨m,us⟩,hread,last,hlast,rfl⟩ := h
  have hread' := read_fill (F := F) hread
  rw [lex,show Mode.normal none = (Mode.normal none).fill F from rfl,hread']
  simp [finish_fill hlast]

theorem fillWith_plain (name text : List Char) : fillWith name (plain text) = text := by
  induction text with
  | nil => rfl
  | cons c text ih => simpa [fillWith,plain] using ih

theorem fillWith_of_all {name : List Char} (h : cells.all Option.isSome = true) :
    plain (fillWith name cells) = cells := by
  obtain ⟨text,rfl⟩ : ∃ text, plain text = cells := by
    refine ⟨cells.filterMap id,?_⟩
    induction cells with
    | nil => rfl
    | cons c cells ih =>
      cases c with
      | none => simp at h
      | some c => simpa [plain] using ih (by simpa using h)
  rw [fillWith_plain]

theorem fill_of_settled (h : t.settled = true) : t.fill F = Token.put F.token t := by
  cases t with
  | body text => exact congrArg Token.body (fillWith_of_all h)
  | _ => rfl

theorem settled_put (hu : t.isName = true) {u : Token} (h : u.settled = true) : (Token.put t u).settled = true := by
  cases u with
  | hole =>
    cases t <;> first
      | rfl
      | cases hu
  | _ => exact h

theorem lexBody_fill {tag : List Char} {text : List Cell} {i : Item} (h : lexBody tag text = some i) :
    lexBody tag (plain (fillWith F.name text)) = some (i.put F.token) := by
  obtain ⟨ts,hlex,hi⟩ := Option.bind_eq_some_iff.mp h
  split at hi <;> cases hi
  rename_i hall
  rw [List.all_eq_true] at hall
  have hput : ts.map (Token.fill F) = ts.map (Token.put F.token) :=
    List.map_congr_left fun t ht => fill_of_settled (hall t ht)
  have hsettled : (ts.map (Token.put F.token)).all Token.settled = true := by
    rw [List.all_eq_true]
    intro u hu
    obtain ⟨t,ht,rfl⟩ := List.mem_map.mp hu
    exact settled_put F.named (hall t ht)
  rw [lexBody,lex_fill hlex,hput,Option.bind_some,if_pos hsettled]
  rfl

theorem lexItem_name (h : t.isName = true) : lexItem t = some (.token t) := by
  cases t <;> first
    | rfl
    | cases h

theorem lexItem_fill {i : Item} (h : lexItem t = some i) : lexItem (t.fill F) = some (i.put F.token) := by
  cases t with
  | hole =>
    cases h
    exact lexItem_name F.named
  | body text => exact lexBody_fill h
  | tagged tag text =>
    have hf := lexBody_fill (F := F) h
    rw [fillWith_plain] at hf
    exact hf
  | _ =>
    cases h
    rfl

theorem lexItems_fill (h : lexItems ts = some items) :
    lexItems (ts.map (Token.fill F)) = some (items.map (Item.put F.token)) := by
  induction ts generalizing items with
  | nil =>
    cases h
    rfl
  | cons t ts ih =>
    simp only [lexItems,Option.bind_eq_some_iff,Option.map_eq_some_iff] at h
    obtain ⟨i,hi,is,his,rfl⟩ := h
    simp [lexItems,lexItem_fill hi,ih his]

theorem lexStatement_fill (h : lexStatement cells = some items) :
    lexStatement (plain (fillWith F.name cells)) = some (items.map (Item.put F.token)) := by
  obtain ⟨ts,hlex,hitems⟩ := Option.bind_eq_some_iff.mp h
  rw [lexStatement,lex_fill hlex,Option.bind_some,lexItems_fill hitems]

/-- No two dollar signs stand side by side. -/
def Apart (text : List Char) : Prop := text.IsChain fun a b => a = '$' → b ≠ '$'

theorem apart_of_no_pair (h : ¬['$','$'] <:+: text) : Apart text := by
  refine (List.isChain_isInfix text).imp ?_
  rintro a b hi rfl rfl
  exact h hi

theorem read_body (h0 : '\x00' ∉ text) (ha : Apart text)
    (hacc : acc.head? = some (some '$') → text.head? ≠ some '$') :
    read (.body acc) (plain text) = some (.body ((plain text).reverse ++ acc),[]) := by
  induction text generalizing acc with
  | nil => rfl
  | cons c text ih =>
    obtain ⟨hc0,h0'⟩ := List.ne_and_not_mem_of_not_mem_cons h0
    obtain ⟨hnext,ha'⟩ := List.isChain_cons.mp ha
    have hclose : ¬(c = '$' ∧ acc.head? = some (some '$')) := fun h => hacc h.2 (congrArg some h.1)
    have hstep : step (.body acc) (some c) = some (.body (some c :: acc),[]) := by
      simp only [step]
      rw [if_neg (Ne.symm hc0),if_neg hclose]
    have hhead : (some c :: acc).head? = some (some '$') → text.head? ≠ some '$' :=
      fun hc ht => hnext '$' ht (by simpa using hc) rfl
    refine (read_cons_of hstep (ih h0' ha' hhead)).trans ?_
    simp [plain]

theorem read_word (h : ∀ c ∈ text, tagPart c = true) (acc : List Char) :
    read (.word acc) (plain text) = some (.word (text.reverse ++ acc),[]) := by
  induction text generalizing acc with
  | nil => rfl
  | cons c text ih =>
    have hc : identPart c = true := by simp [identPart,h c List.mem_cons_self]
    have hstep : step (.word acc) (some c) = some (.word (c :: acc),[]) := by
      simp only [step]
      rw [if_pos hc]
    refine (read_cons_of hstep (ih (fun d hd => h d (List.mem_cons_of_mem _ hd)) (c :: acc))).trans ?_
    simp

theorem ne_of_tagPart {d : Char} (h : tagPart c = true) (hd : tagPart d = false) : c ≠ d := by
  rintro rfl
  exact absurd (h.symm.trans hd) (by decide)

def Filler.bare (c : Char) (text : List Char) (hc : identStart c = true) (h : ∀ d ∈ text, tagPart d = true) :
    Filler where
  name := c :: text
  token := .word (c :: text)
  mode := .word (text.reverse ++ [c])
  reads prev _ := by
    have henter : step (.normal prev) (some c) = some (.word [c],[]) := by
      simp only [step,enter]
      rw [if_pos hc]
    exact read_cons_of henter (read_word h [c])
  qualifies := by
    rw [← List.reverse_cons]
    simp only [step,List.reverse_reverse]
    rfl
  inBody acc := by
    have hall : ∀ d ∈ c :: text, tagPart d = true :=
      List.forall_mem_cons.mpr ⟨by simp [tagPart,hc],h⟩
    refine read_body (fun h0 => ne_of_tagPart (hall _ h0) (by decide) rfl) ?_ fun _ hd => ?_
    · exact apart_of_no_pair fun hi => ne_of_tagPart (hall _ (hi.subset List.mem_cons_self)) (by decide) rfl
    · exact ne_of_tagPart (d := '$') (hall c List.mem_cons_self) (by decide) (by simpa using hd)
  last := by
    have hne : c :: text ≠ [] := List.cons_ne_nil c text
    refine ⟨(c :: text).getLast hne,List.getLast?_eq_getLast_of_ne_nil hne,?_⟩
    exact ne_of_tagPart (List.forall_mem_cons.mpr ⟨by simp [tagPart,hc],h⟩ _ (List.getLast_mem hne)) (by decide)
  named := rfl

def doubled (text : List Char) : List Char := text.flatMap fun c => if c = '"' then ['"','"'] else [c]

def quote (text : List Char) : List Char := '"' :: (doubled text ++ ['"'])

theorem read_doubled (h0 : '\x00' ∉ text) (acc : List Char) :
    read (.quoted acc) (plain (doubled text)) = some (.quoted (text.reverse ++ acc),[]) := by
  induction text generalizing acc with
  | nil => rfl
  | cons c text ih =>
    obtain ⟨hc0,h0'⟩ := List.ne_and_not_mem_of_not_mem_cons h0
    have hc : read (.quoted acc) (plain (doubled [c])) = some (.quoted (c :: acc),[]) := by
      by_cases hq : c = '"'
      · subst c
        rfl
      · simp [doubled,plain,read,step,hq,Ne.symm hc0]
    rw [show plain (doubled (c :: text)) = plain (doubled [c]) ++ plain (doubled text) by simp [doubled,plain]]
    refine (read_append_of hc (ih h0' (c :: acc))).trans ?_
    simp

theorem quote_head (text : List Char) :
    (doubled text ++ ['"']).head? = some '$' ↔ text.head? = some '$' := by
  cases text with
  | nil => simp [doubled]
  | cons c text => by_cases hq : c = '"' <;> simp [doubled,hq]

theorem apart_quote (h : Apart text) : Apart (quote text) := by
  suffices hs : Apart (doubled text ++ ['"']) from List.isChain_cons.mpr ⟨by simp,hs⟩
  induction text with
  | nil => exact .singleton _
  | cons c text ih =>
    obtain ⟨hnext,h'⟩ := List.isChain_cons.mp h
    by_cases hq : c = '"'
    · rw [show doubled (c :: text) ++ ['"'] = '"' :: '"' :: (doubled text ++ ['"']) by simp [doubled,hq]]
      exact List.isChain_cons.mpr ⟨by simp,List.isChain_cons.mpr ⟨by simp,ih h'⟩⟩
    · rw [show doubled (c :: text) ++ ['"'] = c :: (doubled text ++ ['"']) by simp [doubled,hq]]
      refine List.isChain_cons.mpr ⟨?_,ih h'⟩
      rintro d hd hc rfl
      exact hnext '$' ((quote_head text).mp hd) hc rfl

theorem not_mem_quote (h0 : '\x00' ∉ text) : '\x00' ∉ quote text := by
  simp only [quote,doubled,List.mem_cons,List.mem_append,List.mem_flatMap,not_or]
  refine ⟨by decide,?_,by decide⟩
  rintro ⟨c,hc,hm⟩
  split at hm
  · simp at hm
  · exact h0 (List.mem_singleton.mp hm ▸ hc)

theorem step_quotationMark (h : mayPrecede prev = true) : step (.normal prev) (some '"') = some (.quoted [],[]) := by
  have hne : prev ≠ some '&' := by
    rintro rfl
    exact absurd h (by decide)
  change enter prev '"' = _
  rw [enter,if_neg (by decide),if_pos rfl,if_neg hne]

theorem read_quote (h0 : '\x00' ∉ text) (hprev : mayPrecede prev = true) :
    read (.normal prev) (plain (quote text)) = some (.quotedEnd text.reverse,[]) := by
  have htext := read_doubled h0 []
  rw [List.append_nil] at htext
  have hclose : read (.quoted text.reverse) [some '"'] = some (.quotedEnd text.reverse,[]) := read_singleton _ _
  rw [show plain (quote text) = some '"' :: (plain (doubled text) ++ [some '"']) by simp [quote,plain]]
  exact read_cons_of (step_quotationMark hprev) (read_append_of htext hclose)

theorem step_quotedEnd_dot (hne : text ≠ []) :
    step (.quotedEnd text.reverse) (some '.') = some (.normal (some '.'),[.quoted text,.symbol '.']) := by
  have hrev : text.reverse.isEmpty = false := by simpa using hne
  simp only [step,List.reverse_reverse,hrev]
  rfl

def Filler.quotedName (text : List Char) (hne : text ≠ []) (h0 : '\x00' ∉ text) (ha : Apart text) : Filler where
  name := quote text
  token := .quoted text
  mode := .quotedEnd text.reverse
  reads _ hprev := read_quote h0 hprev
  qualifies := step_quotedEnd_dot hne
  inBody acc := read_body (not_mem_quote h0) (apart_quote ha) fun _ => by simp [quote]
  last := ⟨'"',by simp [quote,List.getLast?_cons],by decide⟩
  named := rfl

theorem exists_first_pair (h : ['$','$'] <:+: text) :
    ∃ before rest, text = before ++ '$' :: '$' :: rest ∧ Apart (before ++ ['$']) := by
  induction text with
  | nil => simp at h
  | cons c text ih =>
    by_cases hfirst : ['$','$'] <+: c :: text
    · obtain ⟨rest,hrest⟩ := hfirst
      exact ⟨[],rest,hrest.symm,.singleton _⟩
    · obtain ⟨before,rest,rfl,ha⟩ := ih ((List.infix_cons_iff.mp h).resolve_left hfirst)
      refine ⟨c :: before,rest,rfl,List.isChain_cons.mpr ⟨?_,ha⟩⟩
      rintro d hd rfl rfl
      refine hfirst ?_
      cases before <;> simp_all

theorem lexItems_eq_none (ht : t ∈ ts) (h : lexItem t = none) : lexItems ts = none := by
  induction ts with
  | nil => cases ht
  | cons u ts ih =>
    rw [lexItems]
    rcases List.mem_cons.mp ht with rfl | ht
    · rw [h,Option.bind_none]
    · simp [ih ht]

/-- A statement does not lex if it has a body that does not, whatever comes after it. -/
theorem lexStatement_eq_none {body : List Cell} (h : read (.normal none) cells = some (m,ts)) (hb : .body body ∈ ts)
    (hlex : lex body = none) (rest : List Cell) : lexStatement (cells ++ rest) = none := by
  have hitem : lexItem (.body body) = none := by simp [lexItem,lexBody,hlex]
  refine Option.bind_eq_none_iff.mpr fun us hus => lexItems_eq_none ?_ hitem
  simp only [lex,read_append,h,Option.bind_some,Option.bind_eq_some_iff,Option.map_eq_some_iff] at hus
  obtain ⟨_,⟨q,-,rfl⟩,last,-,rfl⟩ := hus
  exact List.mem_append_left last (List.mem_append_left q.2 hb)

def Mode.awaitsName : Mode → Bool
  | .normal prev => mayPrecede prev
  | _ => false

/-- A body is open, and at its end a name may begin. -/
def Mode.awaitsNameInBody : Mode → Bool
  | .body acc => decide (acc.head? ≠ some (some '$')) && (read (.normal none) acc.reverse).any fun p => p.1.awaitsName
  | _ => false

theorem Mode.exists_of_awaitsName (h : m.awaitsName = true) : ∃ prev, m = .normal prev ∧ mayPrecede prev = true := by
  cases m with
  | normal prev => exact ⟨prev,rfl,h⟩
  | _ => cases h

/-- A quoted name with two dollar signs side by side ends the body that it stands in, and the
body then ends within the name. -/
theorem lexStatement_pair (h : read (.normal none) cells = some (m,ts)) (hm : m.awaitsNameInBody = true)
    (h0 : '\x00' ∉ text) (hd : ['$','$'] <:+: text) (rest : List Cell) :
    lexStatement (cells ++ (plain (quote text) ++ rest)) = none := by
  cases m with
  | body acc =>
    simp only [Mode.awaitsNameInBody,Bool.and_eq_true,decide_eq_true_eq] at hm
    obtain ⟨⟨m',us⟩,hacc,hname⟩ := (Option.any_eq_true _ _).mp hm.2
    obtain ⟨prev,rfl,hprev⟩ := Mode.exists_of_awaitsName hname
    obtain ⟨before,after,rfl,ha⟩ := exists_first_pair hd
    have h0' : '\x00' ∉ before ++ ['$'] := fun hm => h0 (by simp at hm ⊢; exact .inl hm)
    -- up to the first of the two dollar signs the body goes on
    have hquote : plain (quote (before ++ '$' :: '$' :: after)) =
        plain ('"' :: doubled (before ++ ['$'])) ++ (some '$' :: plain (doubled after ++ ['"'])) := by
      simp [quote,doubled,plain]
    have hsplit : quote (before ++ ['$']) = ('"' :: doubled (before ++ ['$'])) ++ ['"'] := by simp [quote]
    have hopen : read (.body acc) (plain ('"' :: doubled (before ++ ['$']))) = _ :=
      read_body (fun hmem => not_mem_quote h0' (hsplit ▸ List.mem_append_left _ hmem))
        (List.IsChain.left_of_append (hsplit ▸ apart_quote ha))
        fun hhead => absurd hhead hm.1
    have hclose : step (.body ((plain ('"' :: doubled (before ++ ['$']))).reverse ++ acc)) (some '$') =
        some (.normal (some '$'),[.body (acc.reverse ++ plain ('"' :: doubled before))]) := by
      simp [step,doubled,plain]
    have hread := read_append_of h (read_append_of hopen ((read_singleton _ _).trans hclose))
    -- the body ends with a quotation mark open
    have hlex : lex (acc.reverse ++ plain ('"' :: doubled before)) = none := by
      have hbefore : read (.quoted []) (plain (doubled before)) = _ := read_doubled (fun hmem => h0 (by simp [hmem])) []
      have hall : read (.normal none) (acc.reverse ++ plain ('"' :: doubled before)) = _ :=
        read_append_of hacc (read_cons_of (step_quotationMark hprev) hbefore)
      rw [lex,hall]
      rfl
    have hnone := lexStatement_eq_none hread (by simp) hlex (plain (doubled after ++ ['"']) ++ rest)
    rw [hquote]
    simpa using hnone
  | _ => cases hm

/-- The text up to the first hole, and what comes after the hole. -/
def untilHole : List Cell → Option (List Char × List Cell)
  | [] => none
  | none :: cells => some ([],cells)
  | some c :: cells => (untilHole cells).map fun p => (c :: p.1,p.2)

theorem fillWith_untilHole {name : List Char} {rest : List Cell} (h : untilHole cells = some (text,rest)) :
    fillWith name cells = text ++ (name ++ fillWith name rest) := by
  induction cells generalizing text with
  | nil => cases h
  | cons c cells ih =>
    cases c with
    | none =>
      cases h
      rfl
    | some c =>
      obtain ⟨⟨text',rest'⟩,hp,he⟩ := Option.map_eq_some_iff.mp h
      cases he
      exact congrArg (List.cons c) (ih hp)

/-- The first hole is a qualified name, and the second one stands in a `$$` body. -/
def holeInBody (cells : List Cell) : Bool :=
  (untilHole cells).any fun p => (read (.normal none) (plain p.1)).any (fun q => q.1.awaitsName) &&
    (untilHole p.2).any fun r => (r.1.head? == some '.') &&
      (read (.normal (some '.')) (plain r.1.tail)).any fun q => q.1.awaitsNameInBody

theorem lexStatement_holeInBody (h : holeInBody cells = true) (hne : text ≠ []) (h0 : '\x00' ∉ text)
    (hd : ['$','$'] <:+: text) : lexStatement (plain (fillWith (quote text) cells)) = none := by
  obtain ⟨⟨front,cells'⟩,hfront,h⟩ := (Option.any_eq_true _ _).mp h
  rw [Bool.and_eq_true] at h
  obtain ⟨⟨m₁,ts₁⟩,hread₁,hm₁⟩ := (Option.any_eq_true _ _).mp h.1
  obtain ⟨⟨middle,rest⟩,hmiddle,h⟩ := (Option.any_eq_true _ _).mp h.2
  rw [Bool.and_eq_true,beq_iff_eq] at h
  obtain ⟨⟨m₂,ts₂⟩,hread₂,hm₂⟩ := (Option.any_eq_true _ _).mp h.2
  obtain ⟨prev,rfl,hprev⟩ := Mode.exists_of_awaitsName hm₁
  obtain ⟨after,rfl⟩ : ∃ after, middle = '.' :: after := List.head?_eq_some_iff.mp h.1
  have hname := read_append_of hread₁ (read_append_of (read_quote h0 hprev)
    (read_cons_of (step_quotedEnd_dot hne) hread₂))
  have hnone := lexStatement_pair hname hm₂ h0 hd (plain (fillWith (quote text) rest))
  rw [fillWith_untilHole hfront,fillWith_untilHole hmiddle]
  simpa [plain] using hnone

end GraphileWorker.Foundation.Sql

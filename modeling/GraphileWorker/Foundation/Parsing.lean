import Mathlib.Data.List.Forall2
import Mathlib.Data.List.TakeWhile
import Mathlib.Tactic.Common

/-! # Parser combinators

Parsers over a list of characters, in the manner of `nom`. A failure, unlike an ordinary error,
is not caught by the combinators that try something else. Loops are bounded by the input.
-/
namespace GraphileWorker.Foundation.Parsing

inductive ErrorKind
  | char
  | satisfy
  | digit
  | verify
  | eof
  | not
  | takeWhile1
  | crLf
  | space
  | separatedList
  | many0
  | fail
  deriving DecidableEq

structure Err where
  input : List Char
  code : ErrorKind
  failure : Bool := false
  deriving DecidableEq

abbrev Parser (α : Type) := List Char → Except Err (List Char × α)

variable {α β γ : Type}

def char (c : Char) : Parser Char
  | d :: rest => if d = c then .ok (rest,c) else .error ⟨d :: rest,.char,false⟩
  | [] => .error ⟨[],.char,false⟩

def satisfy (p : Char → Bool) : Parser Char
  | d :: rest => if p d then .ok (rest,d) else .error ⟨d :: rest,.satisfy,false⟩
  | [] => .error ⟨[],.satisfy,false⟩

def takeWhile (p : Char → Bool) : Parser (List Char) := fun i => .ok (i.dropWhile p,i.takeWhile p)

def takeSome (code : ErrorKind) (p : Char → Bool) : Parser (List Char) := fun i =>
  if (i.takeWhile p).isEmpty then .error ⟨i,code,false⟩ else .ok (i.dropWhile p,i.takeWhile p)

def takeWhile1 (p : Char → Bool) : Parser (List Char) := takeSome .takeWhile1 p

def isSpace (c : Char) : Bool := c == ' ' || c == '\t'

def space0 : Parser (List Char) := takeWhile isSpace

def space1 : Parser (List Char) := takeSome .space isSpace

def eof : Parser (List Char)
  | [] => .ok ([],[])
  | i => .error ⟨i,.eof,false⟩

def lineEnding : Parser (List Char)
  | '\n' :: rest => .ok (rest,['\n'])
  | '\r' :: '\n' :: rest => .ok (rest,['\r','\n'])
  | i => .error ⟨i,.crLf,false⟩

/-- The digits from here on, unless the number gets too large for 32 bits. -/
def digits (value : ℕ) : List Char → Option (List Char × ℕ)
  | [] => some ([],value)
  | c :: rest =>
    if c.isDigit then
      if 10 * value + (c.toNat - '0'.toNat) < 4294967296 then digits (10 * value + (c.toNat - '0'.toNat)) rest else none
    else some (c :: rest,value)

def u32 : Parser ℕ := fun i =>
  if (i.head?.all fun c => !c.isDigit) then .error ⟨i,.digit,false⟩
  else match digits 0 i with
    | some r => .ok r
    | none => .error ⟨i,.digit,false⟩

def map (p : Parser α) (f : α → β) : Parser β := fun i => do
  let (rest,a) ← p i
  return (rest,f a)

def value (b : β) (p : Parser α) : Parser β := map p fun _ => b

def preceded (p : Parser α) (q : Parser β) : Parser β := fun i => do
  let (rest,_) ← p i
  q rest

def terminated (p : Parser α) (q : Parser β) : Parser α := fun i => do
  let (rest,a) ← p i
  let (rest,_) ← q rest
  return (rest,a)

def separatedPair (p : Parser α) (sep : Parser γ) (q : Parser β) : Parser (α × β) := fun i => do
  let (rest,a) ← p i
  let (rest,_) ← sep rest
  let (rest,b) ← q rest
  return (rest,(a,b))

def verify (p : Parser α) (f : α → Bool) : Parser α := fun i => do
  let (rest,a) ← p i
  if f a then return (rest,a) else .error ⟨i,.verify,false⟩

def opt (p : Parser α) : Parser (Option α) := fun i =>
  match p i with
  | .ok (rest,a) => .ok (rest,some a)
  | .error e => if e.failure then .error e else .ok (i,none)

/-- The second parser is tried where the first one ends in an error; its error is the one reported. -/
def alt (p q : Parser α) : Parser α := fun i =>
  match p i with
  | .ok r => .ok r
  | .error e => if e.failure then .error e else q i

def cut (p : Parser α) : Parser α := fun i => (p i).mapError fun e => { e with failure := true }

def not (p : Parser α) : Parser Unit := fun i =>
  match p i with
  | .ok _ => .error ⟨i,.not,false⟩
  | .error e => if e.failure then .error e else .ok (i,())

/-- The rest of a separated list. A separator that no element follows is left where it is. -/
def separatedLoop (sep : Parser β) (p : Parser α) : ℕ → List Char → List α → Except Err (List Char × List α)
  | 0, i, _ => .error ⟨i,.separatedList,false⟩
  | fuel + 1, i, acc =>
    match sep i with
    | .error e => if e.failure then .error e else .ok (i,acc)
    | .ok (afterSep,_) =>
      match p afterSep with
      | .error e => if e.failure then .error e else .ok (i,acc)
      | .ok (rest,a) =>
        if rest.length = i.length then .error ⟨i,.separatedList,false⟩
        else separatedLoop sep p fuel rest (acc ++ [a])

def separatedList1 (sep : Parser β) (p : Parser α) : Parser (List α) := fun i => do
  let (rest,a) ← p i
  separatedLoop sep p (rest.length + 1) rest [a]

def manyLoop (p : Parser α) : ℕ → List Char → List α → Except Err (List Char × List α)
  | 0, i, _ => .error ⟨i,.many0,false⟩
  | fuel + 1, i, acc =>
    match p i with
    | .error e => if e.failure then .error e else .ok (i,acc)
    | .ok (rest,a) => if rest.length = i.length then .error ⟨i,.many0,false⟩ else manyLoop p fuel rest (acc ++ [a])

def many0 (p : Parser α) : Parser (List α) := fun i => manyLoop p (i.length + 1) i []

section
variable {p : Parser α} {q : Parser β} {i rest t : List Char} {a : α} {b : β} {σ : Type} {f : Char → Bool}
  {sep : Parser γ}

theorem bind_ok {ε τ : Type} {x : Except ε σ} {f : σ → Except ε τ} {t : τ} :
    (x >>= f) = .ok t ↔ ∃ s, x = .ok s ∧ f s = .ok t := by
  cases x with
  | error e => simp [bind,Except.bind]
  | ok s => simp [bind,Except.bind]

theorem char_ok {c d : Char} : char c i = .ok (rest,d) ↔ i = c :: rest ∧ d = c := by
  cases i with
  | nil => simp [char]
  | cons e tail =>
    simp only [char]
    split
    · next he =>
      subst he
      simp only [Except.ok.injEq,Prod.mk.injEq,List.cons.injEq,true_and]
      exact and_congr_right fun _ => eq_comm
    · next he => simp [he]

theorem satisfy_ok {c : Char} : satisfy f i = .ok (rest,c) ↔ i = c :: rest ∧ f c = true := by
  cases i with
  | nil => simp [satisfy]
  | cons d tail =>
    simp only [satisfy]
    split
    · next hd =>
      simp only [Except.ok.injEq,Prod.mk.injEq,List.cons.injEq]
      constructor
      · rintro ⟨rfl,rfl⟩
        exact ⟨⟨rfl,rfl⟩,hd⟩
      · rintro ⟨⟨rfl,rfl⟩,-⟩
        exact ⟨rfl,rfl⟩
    · next hd =>
      simp only [reduceCtorEq,List.cons.injEq,false_iff]
      rintro ⟨⟨rfl,-⟩,hc⟩
      exact hd hc

theorem takeWhile_ok (h : takeWhile f i = .ok (rest,t)) : i = t ++ rest ∧ ∀ c ∈ t, f c = true := by
  cases h
  exact ⟨List.takeWhile_append_dropWhile.symm,fun c hc => List.mem_takeWhile_imp hc⟩

theorem takeSome_ok {code : ErrorKind} (h : takeSome code f i = .ok (rest,t)) :
    i = t ++ rest ∧ ∀ c ∈ t, f c = true := by
  unfold takeSome at h
  split at h
  · cases h
  · exact takeWhile_ok h

theorem map_ok {f : α → β} : map p f i = .ok (rest,b) ↔ ∃ a, p i = .ok (rest,a) ∧ f a = b := by
  simp only [map,bind_ok,Prod.exists,pure,Except.pure,Except.ok.injEq,Prod.mk.injEq]
  constructor
  · rintro ⟨_,a,h,rfl,hb⟩
    exact ⟨a,h,hb⟩
  · rintro ⟨a,h,hb⟩
    exact ⟨rest,a,h,rfl,hb⟩

theorem preceded_ok : preceded p q i = .ok (rest,b) ↔ ∃ mid a, p i = .ok (mid,a) ∧ q mid = .ok (rest,b) := by
  simp only [preceded,bind_ok,Prod.exists]

theorem terminated_ok : terminated p q i = .ok (rest,a) ↔ ∃ mid b, p i = .ok (mid,a) ∧ q mid = .ok (rest,b) := by
  simp only [terminated,bind_ok,Prod.exists,pure,Except.pure,Except.ok.injEq,Prod.mk.injEq]
  constructor
  · rintro ⟨mid,a',h,_,b,hq,rfl,rfl⟩
    exact ⟨mid,b,h,hq⟩
  · rintro ⟨mid,b,h,hq⟩
    exact ⟨mid,a,h,rest,b,hq,rfl,rfl⟩

theorem separatedPair_ok : separatedPair p sep q i = .ok (rest,(a,b)) ↔
    ∃ mid mid' c, p i = .ok (mid,a) ∧ sep mid = .ok (mid',c) ∧ q mid' = .ok (rest,b) := by
  simp only [separatedPair,bind_ok,Prod.exists,pure,Except.pure,Except.ok.injEq,Prod.mk.injEq]
  constructor
  · rintro ⟨mid,a',h,mid',c,hc,_,b',hq,rfl,rfl,rfl⟩
    exact ⟨mid,mid',c,h,hc,hq⟩
  · rintro ⟨mid,mid',c,h,hc,hq⟩
    exact ⟨mid,a,h,mid',c,hc,rest,b,hq,rfl,rfl,rfl⟩

theorem verify_ok {f : α → Bool} : verify p f i = .ok (rest,a) ↔ p i = .ok (rest,a) ∧ f a = true := by
  simp only [verify,bind_ok,Prod.exists]
  constructor
  · rintro ⟨rest',a',h,hv⟩
    split at hv
    · next hf =>
      cases hv
      exact ⟨h,hf⟩
    · cases hv
  · rintro ⟨h,hf⟩
    exact ⟨rest,a,h,by rw [if_pos hf]; rfl⟩

/-- The parser ends in an error that others may recover from. -/
def Recoverable {σ : Type} (x : Except Err σ) : Prop := ∃ e, x = .error e ∧ e.failure = false

theorem opt_ok {o : Option α} : opt p i = .ok (rest,o) ↔
    (∃ a, p i = .ok (rest,a) ∧ o = some a) ∨ (Recoverable (p i) ∧ rest = i ∧ o = none) := by
  unfold opt Recoverable
  cases h : p i with
  | ok r =>
    obtain ⟨rest',a'⟩ := r
    simp only [Except.ok.injEq,Prod.mk.injEq,reduceCtorEq,false_and,exists_false,or_false]
    constructor
    · rintro ⟨rfl,rfl⟩
      exact ⟨a',⟨rfl,rfl⟩,rfl⟩
    · rintro ⟨a,⟨rfl,rfl⟩,rfl⟩
      exact ⟨rfl,rfl⟩
  | error e =>
    cases hf : e.failure with
    | true => simp [hf]
    | false =>
      simp only [Bool.false_eq_true,if_false,Except.ok.injEq,Prod.mk.injEq,reduceCtorEq,false_and,exists_false,false_or,
        Except.error.injEq,exists_eq_left',hf,true_and]
      exact and_congr eq_comm eq_comm

theorem alt_ok {p q : Parser α} : alt p q i = .ok (rest,a) ↔
    p i = .ok (rest,a) ∨ (Recoverable (p i) ∧ q i = .ok (rest,a)) := by
  unfold alt Recoverable
  cases h : p i with
  | ok r => simp
  | error e =>
    cases hf : e.failure with
    | true => simp [hf]
    | false => simp [hf]

/-- A result whose error, if it is one, can be recovered from. -/
def Harmless {σ : Type} (x : Except Err σ) : Prop := ∀ e, x = .error e → e.failure = false

/-- Every error of the parser can be recovered from. -/
def Plain (p : Parser α) : Prop := ∀ i e, p i = .error e → e.failure = false

theorem harmless_ok (s : σ) : Harmless (.ok s) := by
  intro e h
  cases h

theorem harmless_error {e : Err} (h : e.failure = false) : Harmless (.error e : Except Err σ) := by
  intro e' he
  cases he
  exact h

theorem Harmless.bind {τ : Type} {x : Except Err σ} {f : σ → Except Err τ} (hx : Harmless x)
    (hf : ∀ s, Harmless (f s)) : Harmless (x >>= f) := by
  cases x with
  | error e => exact harmless_error (hx e rfl)
  | ok s => exact hf s

theorem Plain.recoverable (h : Plain p) (hn : ∀ r, p i ≠ .ok r) : Recoverable (p i) := by
  cases hp : p i with
  | ok r => exact absurd hp (hn r)
  | error e => exact ⟨e,rfl,h i e hp⟩

theorem plain_char (c : Char) : Plain (char c) := by
  intro i
  unfold char
  split
  · split
    · exact harmless_ok _
    · exact harmless_error rfl
  · exact harmless_error rfl

theorem plain_eof : Plain eof := by
  intro i
  unfold eof
  split
  · exact harmless_ok _
  · exact harmless_error rfl

theorem plain_u32 : Plain u32 := by
  intro i
  unfold u32
  split
  · exact harmless_error rfl
  · split
    · exact harmless_ok _
    · exact harmless_error rfl

theorem Plain.map (h : Plain p) (f : α → β) : Plain (map p f) :=
  fun i => Harmless.bind (h i) fun _ => harmless_ok _

theorem Plain.preceded (h : Plain p) (h' : Plain q) : Plain (preceded p q) :=
  fun i => Harmless.bind (h i) fun x => h' x.1

theorem Plain.terminated (h : Plain p) (h' : Plain q) : Plain (terminated p q) :=
  fun i => Harmless.bind (h i) fun x => Harmless.bind (h' x.1) fun _ => harmless_ok _

theorem Plain.separatedPair (h : Plain p) (hs : Plain sep) (h' : Plain q) : Plain (separatedPair p sep q) :=
  fun i => Harmless.bind (h i) fun x => Harmless.bind (hs x.1) fun y => Harmless.bind (h' y.1) fun _ => harmless_ok _

theorem Plain.verify (h : Plain p) (f : α → Bool) : Plain (verify p f) := by
  refine fun i => Harmless.bind (h i) fun x => ?_
  dsimp only
  split
  · exact harmless_ok _
  · exact harmless_error rfl

theorem Plain.opt (h : Plain p) : Plain (opt p) := by
  intro i
  unfold Parsing.opt
  split
  · exact harmless_ok _
  · next e he =>
    rw [h i e he]
    exact harmless_ok _

theorem alt_error {p q : Parser α} (h : Plain p) {e : Err} (he : alt p q i = .error e) : q i = .error e := by
  unfold Parsing.alt at he
  split at he
  · cases he
  · next e' hp =>
    rw [h i e' hp] at he
    exact he

end

section
variable {i rest ds : List Char} {n v : ℕ}

/-- A number is over where no digit follows. -/
def NoDigit (rest : List Char) : Prop := ∀ c ∈ rest.head?, c.isDigit = false

theorem le_ofDigitChars (ds : List Char) (v : ℕ) : v ≤ Nat.ofDigitChars 10 ds v := by
  induction ds generalizing v with
  | nil => exact Nat.le_refl v
  | cons c tail ih =>
    rw [Nat.ofDigitChars_cons]
    have := ih (10 * v + (c.toNat - '0'.toNat))
    omega

theorem digits_ok : digits v i = some (rest,n) ↔ ∃ ds, i = ds ++ rest ∧ (∀ c ∈ ds, c.isDigit = true) ∧ NoDigit rest ∧
    n = Nat.ofDigitChars 10 ds v ∧ (ds ≠ [] → n < 4294967296) := by
  induction i generalizing v with
  | nil =>
    simp only [digits,Option.some.injEq,Prod.mk.injEq]
    constructor
    · rintro ⟨rfl,rfl⟩
      exact ⟨[],rfl,by simp,by simp [NoDigit],rfl,by simp⟩
    · rintro ⟨ds,hi,-,-,rfl,-⟩
      obtain ⟨rfl,rfl⟩ := List.append_eq_nil_iff.mp hi.symm
      exact ⟨rfl,rfl⟩
  | cons c tail ih =>
    by_cases hc : c.isDigit = true
    · simp only [digits,hc,if_true]
      constructor
      · intro h
        split at h
        · next hlt =>
          obtain ⟨ds,rfl,hds,hr,rfl,hn⟩ := ih.mp h
          refine ⟨c :: ds,rfl,?_,hr,by rw [Nat.ofDigitChars_cons],fun _ => ?_⟩
          · simpa [hc] using hds
          · cases ds with
            | nil => exact hlt
            | cons d ds => exact hn (by simp)
        · cases h
      · rintro ⟨ds,hi,hds,hr,rfl,hn⟩
        cases ds with
        | nil =>
          rw [List.nil_append] at hi
          subst hi
          have := hr c (by simp)
          simp [hc] at this
        | cons d ds =>
          rw [List.cons_append,List.cons.injEq] at hi
          obtain ⟨rfl,rfl⟩ := hi
          have hn' := hn (by simp)
          rw [Nat.ofDigitChars_cons] at hn'
          have hle := le_ofDigitChars ds (10 * v + (c.toNat - '0'.toNat))
          rw [if_pos (by omega)]
          refine ih.mpr
            ⟨ds,rfl,fun e he => hds e (List.mem_cons_of_mem _ he),hr,by rw [Nat.ofDigitChars_cons],fun _ => ?_⟩
          rwa [Nat.ofDigitChars_cons]
    · simp only [digits,hc]
      constructor
      · intro h
        cases h
        exact ⟨[],rfl,by simp,by simpa [NoDigit] using hc,rfl,by simp⟩
      · rintro ⟨ds,hi,hds,-,rfl,-⟩
        cases ds with
        | nil =>
          rw [List.nil_append] at hi
          subst hi
          simp
        | cons d ds =>
          rw [List.cons_append,List.cons.injEq] at hi
          obtain ⟨rfl,-⟩ := hi
          exact absurd (hds c (by simp)) hc

/-- Text that `u32` reads as this number. -/
structure IsNumber (ds : List Char) (n : ℕ) : Prop where
  ne_nil : ds ≠ []
  isDigit : ∀ c ∈ ds, c.isDigit = true
  value : n = Nat.ofDigitChars 10 ds 0
  lt : n < 4294967296

theorem u32_ok : u32 i = .ok (rest,n) ↔ ∃ ds, i = ds ++ rest ∧ IsNumber ds n ∧ NoDigit rest := by
  unfold u32
  constructor
  · intro h
    split at h
    · cases h
    · next hh =>
      split at h
      · next r hd =>
        cases h
        obtain ⟨ds,rfl,hds,hr,hn,hlt⟩ := digits_ok.mp hd
        have hne : ds ≠ [] := by
          rintro rfl
          exact hh (by simpa [NoDigit,Option.all_eq_true] using hr)
        exact ⟨ds,rfl,⟨hne,hds,hn,hlt hne⟩,hr⟩
      · cases h
  · rintro ⟨ds,rfl,hds,hr⟩
    have hd : digits 0 (ds ++ rest) = some (rest,n) :=
      digits_ok.mpr ⟨ds,rfl,hds.isDigit,hr,hds.value,fun _ => hds.lt⟩
    have hhead : ((ds ++ rest).head?.all fun c => !c.isDigit) = false := by
      obtain ⟨c,tail,rfl⟩ := List.exists_cons_of_ne_nil hds.ne_nil
      simpa using hds.isDigit c (by simp)
    rw [hhead,hd]
    rfl

theorem isNumber_toDigits (h : n < 4294967296) : IsNumber (Nat.toDigits 10 n) n where
  ne_nil := Nat.toDigits_ne_nil
  isDigit _ hc := Nat.isDigit_of_mem_toDigits (by decide) (by decide) hc
  value := Nat.ofDigitChars_ten_toDigits.symm
  lt := h

end

section
variable {P : List Char → α → Prop} {p : Parser α} {c : Char} {fuel : ℕ} {rest i : List Char} {as acc : List α}
  {F : List Char → Prop} {ts : List (List Char)}

theorem intercalate_cons_eq (c : Char) (t : List Char) (ts : List (List Char)) :
    [c].intercalate (t :: ts) = t ++ ts.flatMap (c :: ·) := by
  induction ts generalizing t with
  | nil => simp
  | cons u us ih => rw [List.intercalate_cons_cons,ih]; simp

theorem length_le_flatMap (c : Char) (ts : List (List Char)) : ts.length ≤ (ts.flatMap (c :: ·)).length := by
  induction ts with
  | nil => exact Nat.le_refl 0
  | cons t ts ih =>
    rw [List.flatMap_cons,List.length_append,List.length_cons,List.length_cons]
    omega

theorem separatedLoop_sound (hp : ∀ i rest a, p i = .ok (rest,a) → ∃ t, i = t ++ rest ∧ P t a)
    (h : separatedLoop (char c) p fuel i acc = .ok (rest,as)) :
    ∃ ts bs, i = ts.flatMap (c :: ·) ++ rest ∧ as = acc ++ bs ∧ List.Forall₂ P ts bs := by
  induction fuel generalizing i acc with
  | zero => cases h
  | succ fuel ih =>
    have stop : (Except.ok (i,acc) : Except Err _) = .ok (rest,as) →
        ∃ ts bs, i = ts.flatMap (c :: ·) ++ rest ∧ as = acc ++ bs ∧ List.Forall₂ P ts bs := by
      intro he
      cases he
      exact ⟨[],[],rfl,by simp,.nil⟩
    simp only [separatedLoop] at h
    split at h
    · split at h
      · cases h
      · exact stop h
    · next afterSep d hs =>
      split at h
      · split at h
        · cases h
        · exact stop h
      · next rest' a ha =>
        split at h
        · cases h
        · obtain ⟨rfl,-⟩ := char_ok.mp hs
          obtain ⟨t,rfl,ht⟩ := hp _ _ _ ha
          obtain ⟨ts,bs,rfl,rfl,hts⟩ := ih h
          exact ⟨t :: ts,a :: bs,by simp,by simp,.cons ht hts⟩

theorem separatedList1_sound (hp : ∀ i rest a, p i = .ok (rest,a) → ∃ t, i = t ++ rest ∧ P t a)
    (h : separatedList1 (char c) p i = .ok (rest,as)) :
    ∃ ts, i = [c].intercalate ts ++ rest ∧ ts ≠ [] ∧ List.Forall₂ P ts as := by
  obtain ⟨⟨mid,a⟩,ha,hl⟩ := bind_ok.mp h
  obtain ⟨t,rfl,ht⟩ := hp _ _ _ ha
  obtain ⟨ts,bs,rfl,rfl,hts⟩ := separatedLoop_sound hp hl
  exact ⟨t :: ts,by simp [intercalate_cons_eq],by simp,.cons ht hts⟩

theorem separatedLoop_complete (hp : ∀ t a rest, P t a → F rest → p (t ++ rest) = .ok (rest,a))
    (hc : ∀ rest, F (c :: rest)) (hr : F rest) (hn : ∀ d ∈ rest.head?, d ≠ c)
    {bs : List α} (hf : ts.length < fuel) (h : List.Forall₂ P ts bs) :
    separatedLoop (char c) p fuel (ts.flatMap (c :: ·) ++ rest) acc = .ok (rest,acc ++ bs) := by
  induction h generalizing fuel acc with
  | nil =>
    obtain ⟨fuel,rfl⟩ := Nat.exists_eq_succ_of_ne_zero (Nat.ne_of_gt hf)
    have hstop : ∀ r, char c rest ≠ .ok r := by
      rintro ⟨r,d⟩ h
      obtain ⟨rfl,-⟩ := char_ok.mp h
      exact hn c (by simp) rfl
    obtain ⟨e,he,hfail⟩ := (plain_char c).recoverable hstop
    simp [separatedLoop,he,hfail]
  | @cons t a ts bs ht hts ih =>
    obtain ⟨fuel,rfl⟩ := Nat.exists_eq_succ_of_ne_zero (Nat.ne_of_gt (Nat.zero_lt_of_lt hf))
    have hfollow : F (ts.flatMap (c :: ·) ++ rest) := by
      cases ts with
      | nil => exact hr
      | cons u us => exact hc _
    have helem := hp t a (ts.flatMap (c :: ·) ++ rest) ht hfollow
    have hsep : char c (c :: (t ++ (ts.flatMap (c :: ·) ++ rest))) = .ok (t ++ (ts.flatMap (c :: ·) ++ rest),c) :=
      char_ok.mpr ⟨rfl,rfl⟩
    have hlen : (ts.flatMap (c :: ·) ++ rest).length ≠ (c :: (t ++ (ts.flatMap (c :: ·) ++ rest))).length := by
      simp only [List.length_cons,List.length_append]
      omega
    rw [List.flatMap_cons,List.append_assoc,List.cons_append]
    simp only [separatedLoop,hsep,helem,if_neg hlen]
    rw [ih (Nat.lt_of_succ_lt_succ hf)]
    simp

theorem separatedList1_complete (hp : ∀ t a rest, P t a → F rest → p (t ++ rest) = .ok (rest,a))
    (hc : ∀ rest, F (c :: rest)) (hr : F rest) (hn : ∀ d ∈ rest.head?, d ≠ c)
    (hne : ts ≠ []) (h : List.Forall₂ P ts as) :
    separatedList1 (char c) p ([c].intercalate ts ++ rest) = .ok (rest,as) := by
  cases h with
  | nil => exact absurd rfl hne
  | @cons t a ts bs ht hts =>
    have hfollow : F (ts.flatMap (c :: ·) ++ rest) := by
      cases ts with
      | nil => exact hr
      | cons u us => exact hc _
    rw [intercalate_cons_eq,List.append_assoc]
    refine bind_ok.mpr ⟨_,hp t a _ ht hfollow,?_⟩
    have hlen : ts.length < (ts.flatMap (c :: ·) ++ rest).length + 1 := by
      have := length_le_flatMap c ts
      rw [List.length_append]
      omega
    exact separatedLoop_complete hp hc hr hn hlen hts

theorem manyLoop_sound (hp : ∀ i rest a, p i = .ok (rest,a) → ∃ t, i = t ++ rest ∧ P t a)
    (h : manyLoop p fuel i acc = .ok (rest,as)) :
    ∃ ts bs, i = ts.flatten ++ rest ∧ as = acc ++ bs ∧ List.Forall₂ P ts bs := by
  induction fuel generalizing i acc with
  | zero => cases h
  | succ fuel ih =>
    simp only [manyLoop] at h
    split at h
    · split at h
      · cases h
      · cases h
        exact ⟨[],[],rfl,by simp,.nil⟩
    · next rest' a ha =>
      split at h
      · cases h
      · obtain ⟨t,rfl,ht⟩ := hp _ _ _ ha
        obtain ⟨ts,bs,rfl,rfl,hts⟩ := ih h
        exact ⟨t :: ts,a :: bs,by simp,by simp,.cons ht hts⟩

theorem many0_satisfy_ok {f : Char → Bool} {cs : List Char} (h : many0 (satisfy f) i = .ok (rest,cs)) :
    i = cs ++ rest ∧ ∀ c ∈ cs, f c = true := by
  obtain ⟨ts,bs,rfl,rfl,hts⟩ := manyLoop_sound (P := fun t c => t = [c] ∧ f c = true)
    (fun i rest c hc => ⟨[c],(satisfy_ok.mp hc).1,rfl,(satisfy_ok.mp hc).2⟩) h
  clear h
  induction hts with
  | nil => simp
  | cons ht _ ih =>
    obtain ⟨rfl,hc⟩ := ht
    exact ⟨by simpa using ih.1,by simpa [hc] using ih.2⟩

end

end GraphileWorker.Foundation.Parsing

import GraphileWorker.Foundation.Parsing

/-! # What a parser looks at

A parser is local to the text before a stop character when text that starts with such a
character changes nothing but the rest it leaves. It consumes its input from the front, so the
bounded loops never run out.
-/
namespace GraphileWorker.Foundation.Parsing
variable {α β γ : Type} {i r tail : List Char} {f : Char → Bool} {sep : Parser β}

/-- The results on `i` and on `i ++ tail`. -/
inductive Agrees (i tail : List Char) : Except Err (List Char × α) → Except Err (List Char × α) → Prop
  | ok {rest : List Char} (h : rest <:+ i) (a : α) : Agrees i tail (.ok (rest,a)) (.ok (rest ++ tail,a))
  | error {e e' : Err} (h : e.failure = false) (h' : e'.failure = false) : Agrees i tail (.error e) (.error e')

theorem Agrees.mono {x y : Except Err (List Char × α)} (h : Agrees r tail x y) (hr : r <:+ i) : Agrees i tail x y := by
  cases h with
  | ok h a => exact .ok (h.trans hr) a
  | error h h' => exact .error h h'

theorem Agrees.bind {x y : Except Err (List Char × α)} {f g : List Char × α → Except Err (List Char × β)}
    (h : Agrees i tail x y) (hf : ∀ rest a, Agrees rest tail (f (rest,a)) (g (rest ++ tail,a))) :
    Agrees i tail (x >>= f) (y >>= g) := by
  cases h with
  | ok h a => exact (hf _ a).mono h
  | error h h' => exact .error h h'

section
variable (stop : Char → Bool)

def Stopped (tail : List Char) : Prop := ∃ c rest, tail = c :: rest ∧ stop c = true

def Local (p : Parser α) : Prop := ∀ i tail, Stopped stop tail → Agrees i tail (p i) (p (i ++ tail))

end

variable {stop : Char → Bool}

theorem Local.ok {p : Parser α} (h : Local stop p) {rest : List Char} {a : α} (hp : p i = .ok (rest,a))
    (ht : Stopped stop tail) : rest <:+ i ∧ p (i ++ tail) = .ok (rest ++ tail,a) := by
  have hx := h i tail ht
  rw [hp] at hx
  generalize p (i ++ tail) = y at hx
  cases hx with
  | ok h a => exact ⟨h,rfl⟩

theorem Local.plain {p : Parser α} (h : Local stop p) (ht : Stopped stop tail) : Plain p := by
  intro i e hp
  have hx := h i tail ht
  rw [hp] at hx
  generalize p (i ++ tail) = y at hx
  cases hx with
  | error h h' => exact h

theorem local_char {c : Char} (hc : stop c = false) : Local stop (char c) := by
  rintro i tail ⟨d,rest,rfl,hd⟩
  cases i with
  | nil =>
    have hne : d ≠ c := by
      rintro rfl
      simp [hc] at hd
    simp only [char,List.nil_append,if_neg hne]
    exact .error rfl rfl
  | cons e i =>
    simp only [char,List.cons_append]
    split
    · exact .ok (List.suffix_cons e i) c
    · exact .error rfl rfl

section Stops
variable (hf : ∀ c, stop c = true → f c = false)
include hf

theorem takeWhile_stopped (h : Stopped stop tail) (i : List Char) : (i ++ tail).takeWhile f = i.takeWhile f := by
  obtain ⟨c,rest,rfl,hc⟩ := h
  induction i with
  | nil => simp [hf c hc]
  | cons d i ih => simp only [List.cons_append,List.takeWhile_cons,ih]

theorem dropWhile_stopped (h : Stopped stop tail) (i : List Char) : (i ++ tail).dropWhile f = i.dropWhile f ++ tail := by
  obtain ⟨c,rest,rfl,hc⟩ := h
  induction i with
  | nil => simp [hf c hc]
  | cons d i ih =>
    simp only [List.cons_append,List.dropWhile_cons,ih]
    split <;> rfl

theorem local_satisfy : Local stop (satisfy f) := by
  rintro i tail ⟨d,rest,rfl,hd⟩
  cases i with
  | nil =>
    simp only [satisfy,List.nil_append,hf d hd]
    exact .error rfl rfl
  | cons e i =>
    simp only [satisfy,List.cons_append]
    split
    · exact .ok (List.suffix_cons e i) e
    · exact .error rfl rfl

theorem local_takeWhile : Local stop (takeWhile f) := by
  intro i tail ht
  simp only [takeWhile,takeWhile_stopped hf ht,dropWhile_stopped hf ht]
  exact .ok (List.dropWhile_suffix f) _

theorem local_takeSome (code : ErrorKind) : Local stop (takeSome code f) := by
  intro i tail ht
  simp only [takeSome,takeWhile_stopped hf ht,dropWhile_stopped hf ht]
  split
  · exact .error rfl rfl
  · exact .ok (List.dropWhile_suffix f) _

end Stops

theorem digits_stopped (hf : ∀ c, stop c = true → c.isDigit = false) (h : Stopped stop tail) (v : ℕ) (i : List Char) :
    digits v (i ++ tail) = (digits v i).map fun x => (x.1 ++ tail,x.2) := by
  obtain ⟨c,rest,rfl,hc⟩ := h
  induction i generalizing v with
  | nil => simp [digits,hf c hc]
  | cons d i ih =>
    simp only [List.cons_append,digits]
    split
    · split
      · exact ih _
      · rfl
    · rfl

theorem local_u32 (hf : ∀ c, stop c = true → c.isDigit = false) : Local stop u32 := by
  intro i tail ht
  have hhead : ((i ++ tail).head?.all fun c => !c.isDigit) = i.head?.all fun c => !c.isDigit := by
    obtain ⟨c,rest,rfl,hc⟩ := ht
    cases i with
    | nil => simp [hf c hc]
    | cons d i => rfl
  simp only [u32,hhead,digits_stopped hf ht]
  split
  · exact .error rfl rfl
  · cases hd : digits 0 i with
    | none => exact .error rfl rfl
    | some x =>
      obtain ⟨ds,rfl,-⟩ := digits_ok.mp hd
      exact .ok (List.suffix_append ds x.1) x.2

variable {p : Parser α} {q : Parser β}

section
variable (h : Local stop p)
include h

theorem Local.map (f : α → β) : Local stop (map p f) :=
  fun i tail ht => (h i tail ht).bind fun rest a => .ok (List.suffix_refl rest) (f a)

theorem Local.preceded (h' : Local stop q) : Local stop (preceded p q) :=
  fun i tail ht => (h i tail ht).bind fun rest _ => h' rest tail ht

theorem Local.terminated (h' : Local stop q) : Local stop (terminated p q) :=
  fun i tail ht => (h i tail ht).bind fun rest a => (h' rest tail ht).bind fun rest' _ =>
    .ok (List.suffix_refl rest') a

theorem Local.separatedPair {sep : Parser γ} (hs : Local stop sep) (h' : Local stop q) :
    Local stop (separatedPair p sep q) :=
  fun i tail ht => (h i tail ht).bind fun rest a => (hs rest tail ht).bind fun rest' _ =>
    (h' rest' tail ht).bind fun rest'' b => .ok (List.suffix_refl rest'') (a,b)

theorem Local.verify (f : α → Bool) : Local stop (verify p f) := by
  intro i tail ht
  refine (h i tail ht).bind fun rest a => ?_
  dsimp only
  split
  · exact .ok (List.suffix_refl rest) a
  · exact .error rfl rfl

theorem Local.opt : Local stop (opt p) := by
  intro i tail ht
  have hx := h i tail ht
  unfold Parsing.opt
  generalize p i = x at hx ⊢
  generalize p (i ++ tail) = y at hx ⊢
  cases hx with
  | ok h a => exact .ok h (some a)
  | error h h' =>
    simp only [h,h']
    exact .ok (List.suffix_refl i) none

end

theorem Local.alt {p q : Parser α} (h : Local stop p) (h' : Local stop q) : Local stop (alt p q) := by
  intro i tail ht
  have hx := h i tail ht
  unfold Parsing.alt
  generalize p i = x at hx ⊢
  generalize p (i ++ tail) = y at hx ⊢
  cases hx with
  | ok h a => exact .ok h a
  | error h h'' =>
    simp only [h,h'']
    exact h' i tail ht

theorem length_lt_of_suffix (h : r <:+ i) (hne : ¬r.length = i.length) : r.length < i.length :=
  Nat.lt_of_le_of_ne h.length_le hne

theorem agrees_separatedLoop (hp : Local stop p) (hs : Local stop sep) (ht : Stopped stop tail)
    {fuel fuel' : ℕ} (hf : i.length < fuel) (hf' : (i ++ tail).length < fuel') (acc : List α) :
    Agrees i tail (separatedLoop sep p fuel i acc) (separatedLoop sep p fuel' (i ++ tail) acc) := by
  induction fuel generalizing i fuel' acc with
  | zero => exact absurd hf (Nat.not_lt_zero _)
  | succ fuel ih =>
    obtain ⟨fuel',rfl⟩ := Nat.exists_eq_succ_of_ne_zero (Nat.ne_of_gt (Nat.zero_lt_of_lt hf'))
    have hx := hs i tail ht
    simp only [separatedLoop]
    generalize sep i = x at hx ⊢
    generalize sep (i ++ tail) = x' at hx ⊢
    cases hx with
    | error h h' =>
      simp only [h,h']
      exact .ok (List.suffix_refl i) acc
    | @ok afterSep hsep b =>
      have hy := hp afterSep tail ht
      dsimp only
      generalize p afterSep = y at hy ⊢
      generalize p (afterSep ++ tail) = y' at hy ⊢
      cases hy with
      | error h h' =>
        simp only [h,h']
        exact .ok (List.suffix_refl i) acc
      | @ok rest hrest a =>
        simp only [List.length_append] at hf' ⊢
        by_cases hl : rest.length = i.length
        · rw [if_pos hl,if_pos (by omega)]
          exact .error rfl rfl
        · have hlt := length_lt_of_suffix (hrest.trans hsep) hl
          rw [if_neg hl,if_neg (by omega)]
          exact (ih (by omega) (by rw [List.length_append]; omega) _).mono (hrest.trans hsep)

theorem Local.separatedList1 (hp : Local stop p) (hs : Local stop sep) : Local stop (separatedList1 sep p) :=
  fun i tail ht => (hp i tail ht).bind fun _ _ =>
    agrees_separatedLoop hp hs ht (Nat.lt_succ_self _) (Nat.lt_succ_self _) _

theorem agrees_manyLoop (hp : Local stop p) (ht : Stopped stop tail) {fuel fuel' : ℕ} (hf : i.length < fuel)
    (hf' : (i ++ tail).length < fuel') (acc : List α) :
    Agrees i tail (manyLoop p fuel i acc) (manyLoop p fuel' (i ++ tail) acc) := by
  induction fuel generalizing i fuel' acc with
  | zero => exact absurd hf (Nat.not_lt_zero _)
  | succ fuel ih =>
    obtain ⟨fuel',rfl⟩ := Nat.exists_eq_succ_of_ne_zero (Nat.ne_of_gt (Nat.zero_lt_of_lt hf'))
    have hx := hp i tail ht
    simp only [manyLoop]
    generalize p i = x at hx ⊢
    generalize p (i ++ tail) = x' at hx ⊢
    cases hx with
    | error h h' =>
      simp only [h,h']
      exact .ok (List.suffix_refl i) acc
    | @ok rest hrest a =>
      simp only [List.length_append] at hf' ⊢
      by_cases hl : rest.length = i.length
      · rw [if_pos hl,if_pos (by omega)]
        exact .error rfl rfl
      · have hlt := length_lt_of_suffix hrest hl
        rw [if_neg hl,if_neg (by omega)]
        exact (ih (by omega) (by rw [List.length_append]; omega) _).mono hrest

theorem Local.many0 (hp : Local stop p) : Local stop (many0 p) :=
  fun _ _ ht => agrees_manyLoop hp ht (Nat.lt_succ_self _) (Nat.lt_succ_self _) _

/-- Parsers that leave a suffix of their input. -/
def Consumes (p : Parser α) : Prop := ∀ i rest a, p i = .ok (rest,a) → rest <:+ i

theorem manyLoop_eq (hp : Consumes p) {fuel : ℕ} (hf : i.length < fuel) (acc : List α) :
    manyLoop p fuel i acc = (many0 p i).map fun x => (x.1,acc ++ x.2) := by
  -- both loops take the same steps as long as neither runs out
  suffices h : ∀ fuel fuel' i acc acc', i.length < fuel → i.length < fuel' →
      (manyLoop p fuel i (acc ++ acc')) = (manyLoop p fuel' i acc').map fun x => (x.1,acc ++ x.2) by
    simpa [Parsing.many0] using h fuel (i.length + 1) i acc [] hf (Nat.lt_succ_self _)
  intro fuel
  induction fuel with
  | zero => exact fun _ _ _ _ h _ => absurd h (Nat.not_lt_zero _)
  | succ fuel ih =>
    intro fuel' i acc acc' hf hf'
    obtain ⟨fuel',rfl⟩ := Nat.exists_eq_succ_of_ne_zero (Nat.ne_of_gt (Nat.zero_lt_of_lt hf'))
    simp only [manyLoop]
    cases h : p i with
    | error e => by_cases he : e.failure = true <;> simp [he,Except.map]
    | ok x =>
      obtain ⟨rest,a⟩ := x
      by_cases hl : rest.length = i.length
      · simp [hl,Except.map]
      · have hlt := length_lt_of_suffix (hp _ _ _ h) hl
        simp only [if_neg hl,List.append_assoc]
        exact ih fuel' rest acc (acc' ++ [a]) (by omega) (by omega)

theorem many0_eq (hp : Consumes p) (i : List Char) : many0 p i =
    match p i with
    | .error e => if e.failure then .error e else .ok (i,[])
    | .ok (rest,a) => if rest.length = i.length then .error ⟨i,.many0,false⟩
      else (many0 p rest).map fun x => (x.1,a :: x.2) := by
  cases h : p i with
  | error e => simp [Parsing.many0,manyLoop,h]
  | ok x =>
    obtain ⟨rest,a⟩ := x
    by_cases hl : rest.length = i.length
    · simp [Parsing.many0,manyLoop,h,hl]
    · have hlt := length_lt_of_suffix (hp _ _ _ h) hl
      simp only [Parsing.many0,manyLoop,h,if_neg hl]
      exact manyLoop_eq hp hlt [a]

end GraphileWorker.Foundation.Parsing

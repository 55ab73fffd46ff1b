import GraphileWorker.Cron.Lines
import GraphileWorker.Cron.TimerMeaning

/-! # Accepted texts and the documented grammar

Every entry comes from one line: a timer, a task, an optional query and an optional payload.
What the last two hold is not looked at beyond what their readers accept.
-/
namespace GraphileWorker.Cron
open Database Foundation Foundation.Parsing

def CrontabTimer.field (timer : CrontabTimer) : CrontabPart → List CrontabValue
  | .minute => timer.minutes
  | .hours => timer.hours
  | .days => timer.days
  | .months => timer.months
  | .daysOfWeek => timer.dows

/-- Numbers and ranges are within the bounds of the field, steps are positive. -/
def CrontabValue.IsDocumented (part : CrontabPart) : CrontabValue → Prop
  | .number n => part.InBounds n
  | .range low high => part.InBounds low ∧ part.InBounds high
  | .step n => 1 ≤ n
  | .any => True

def isLetter (c : Char) : Prop := ('a' ≤ c ∧ c ≤ 'z') ∨ ('A' ≤ c ∧ c ≤ 'Z')

/-- `[_a-zA-Z][_a-zA-Z0-9:/_-]*`. -/
def IsTaskIdentifier (text : List Char) : Prop :=
  ∃ first others, text = first :: others ∧ (first = '_' ∨ isLetter first) ∧
    ∀ c ∈ others, c = '_' ∨ isLetter c ∨ ('0' ≤ c ∧ c ≤ '9') ∨ c ∈ [':','/','-']

def NamesUnit (phrase : List Char) : Prop :=
  ∃ before ds unit after n, phrase = before ++ (ds ++ unit :: after) ∧ IsNumber ds n ∧ unit ∈ ['w','d','h','m','s']

def isObject : Json → Bool
  | .object _ => true
  | _ => false

structure LineParts where
  timer : List Char
  task : List Char
  query : Option (List Char)
  payload : Option (List Char)

section
variable (readers : Readers) (parts : LineParts)

def LineParts.queryOption : Option QueryOption := parts.query.bind readers.serdeQs

def LineParts.fillPhrase : Option (List Char) := (parts.queryOption readers).bind QueryOption.fill

structure Documented (entry : Crontab) : Prop where
  values : ∀ part, ∀ v ∈ entry.timer.field part, v.IsDocumented part
  task : IsTaskIdentifier entry.taskIdentifier.toList
  fill : entry.options.fill.isSome = true → ∃ phrase, parts.fillPhrase readers = some phrase ∧ NamesUnit phrase
  max : ∀ n, entry.options.max = some n → 1 ≤ n
  payload : ∀ json, entry.payload = some json → isObject json = true

def Blanks (text : List Char) : Prop := ∀ c ∈ text, isSpace c = true

inductive PartText (mark : List Char) : Option (List Char) → List Char → Prop
  | absent : PartText mark none []
  | present {blanks text : List Char} (h : Blanks blanks) : PartText mark (some text) (blanks ++ (mark ++ text))

inductive OptionsText : Option (List Char) → CrontabOptions → Prop
  | absent : OptionsText none {}
  | present {qs : List Char} {query : QueryOption} {fill : Option CrontabFill} (hq : readers.serdeQs qs = some query)
      (hf : query.fill.mapM (fun text => (crontabFill text).map Prod.snd) = .ok fill) : OptionsText (some qs)
        ⟨query.id,fill,query.max,query.queue,query.priority,query.jobKey,query.jobKeyMode⟩

inductive PayloadText : Option (List Char) → Option Json → Prop
  | absent : PayloadText none none
  | present {text : List Char} {json : Json} (h : readers.json5 text = some json) : PayloadText (some text) (some json)

/-- The line has these parts, and they are read as this entry. -/
structure ReadAs (line : List Char) (entry : Crontab) : Prop where
  text : ∃ b₀ b₁ q p b₂,
    line = b₀ ++ (parts.timer ++ (b₁ ++ (parts.task ++ (q ++ (p ++ b₂))))) ∧ Blanks b₀ ∧ Blanks b₁ ∧
    Blanks b₂ ∧ PartText ['?'] parts.query q ∧ PartText [] parts.payload p
  timer : ∃ rest, nomCrontabTimer (parts.timer ++ rest) = .ok (rest,entry.timer)
  task : entry.taskIdentifier = String.ofList parts.task
  identifier : IsTaskIdentifier parts.task
  options : OptionsText readers parts.query entry.options
  payload : PayloadText readers parts.payload entry.payload

def isZeroStep : List Char → Bool
  | '*' :: '/' :: ds => numeral ds == 0
  | _ => false

/-- What the parts of a line have to keep clear of. -/
structure Allowed : Prop where
  steps : ∀ field ∈ parts.timer.splitOn ' ', ∀ item ∈ field.splitOn ',', isZeroStep item = false
  fill : parts.fillPhrase readers ≠ some []
  max : (parts.queryOption readers).bind QueryOption.max ≠ some 0
  payload : ∀ json, parts.payload.bind readers.json5 = some json → isObject json = true

end

section
variable {i rest : List Char} {entry : Crontab}

theorem isLetter_of_isAlpha {c : Char} (h : c.isAlpha = true) : isLetter c := by
  have hor : (c.isUpper || c.isLower) = true := h
  rw [Bool.or_eq_true] at hor
  rcases hor with h | h
  · have hand : decide ('A'.val ≤ c.val ∧ c.val ≤ 'Z'.val) = true := h
    exact .inr (of_decide_eq_true hand)
  · have hand : (decide ('a'.val ≤ c.val) && decide (c.val ≤ 'z'.val)) = true := h
    rw [Bool.and_eq_true,decide_eq_true_eq,decide_eq_true_eq] at hand
    exact .inl hand

theorem isDigit_bounds {c : Char} (h : c.isDigit = true) : '0' ≤ c ∧ c ≤ '9' := by
  simp only [Char.isDigit,Bool.and_eq_true,decide_eq_true_eq] at h
  exact h

theorem nomTaskIdentifier_sound {task : String} (h : nomTaskIdentifier i = .ok (rest,task)) :
    ∃ text, i = text ++ rest ∧ task = String.ofList text ∧ IsTaskIdentifier text := by
  unfold nomTaskIdentifier at h
  obtain ⟨⟨i₁,first⟩,h₁,h⟩ := bind_ok.mp h
  obtain ⟨⟨i₂,others⟩,h₂,h⟩ := bind_ok.mp h
  cases h
  obtain ⟨rfl,hfirst⟩ := satisfy_ok.mp h₁
  obtain ⟨rfl,hothers⟩ := many0_satisfy_ok h₂
  refine ⟨first :: others,rfl,rfl,first,others,rfl,?_,fun c hc => ?_⟩
  · simp only [Bool.or_eq_true,beq_iff_eq] at hfirst
    exact hfirst.symm.imp id isLetter_of_isAlpha
  · have hc := hothers c hc
    simp only [Char.isAlphanum,Bool.or_eq_true,beq_iff_eq] at hc
    rcases hc with ((((hc | hc) | hc) | hc) | hc) | hc
    · exact .inr (.inl (isLetter_of_isAlpha hc))
    · exact .inr (.inr (.inl (isDigit_bounds hc)))
    · exact .inr (.inr (.inr (by simp [hc])))
    · exact .inl hc
    · exact .inr (.inr (.inr (by simp [hc])))
    · exact .inr (.inr (.inr (by simp [hc])))

variable {readers : Readers}

theorem crontabQuery_sound {query : QueryOption} (h : crontabQuery readers i = .ok (rest,query)) :
    ∃ qs, i = ['?'] ++ qs ++ rest ∧ readers.serdeQs qs = some query := by
  obtain ⟨⟨mid,qs⟩,hqs,hread⟩ := bind_ok.mp h
  obtain ⟨mid',c,hc,ht⟩ := preceded_ok.mp hqs
  obtain ⟨rfl,-⟩ := char_ok.mp hc
  obtain ⟨rfl,-⟩ := takeSome_ok ht
  dsimp only at hread
  split at hread
  · next query' hq =>
    cases hread
    exact ⟨qs,by simp,hq⟩
  · cases hread

theorem nomCrontabOpts_sound {options : CrontabOptions} (h : nomCrontabOpts readers i = .ok (rest,options)) :
    ∃ qs, i = ['?'] ++ qs ++ rest ∧ OptionsText readers (some qs) options := by
  obtain ⟨⟨mid,query⟩,hquery,hrest⟩ := bind_ok.mp h
  obtain ⟨fill,hf,hopts⟩ := bind_ok.mp hrest
  cases hopts
  obtain ⟨qs,rfl,hq⟩ := crontabQuery_sound hquery
  exact ⟨qs,rfl,.present hq hf⟩

theorem nomCrontabPayload_sound {json : Json} (h : nomCrontabPayload readers i = .ok (rest,json)) :
    ∃ text, i = [] ++ text ++ rest ∧ PayloadText readers (some text) (some json) := by
  obtain ⟨⟨mid,text⟩,htext,hread⟩ := bind_ok.mp h
  obtain ⟨rfl,-⟩ := takeSome_ok htext
  dsimp only at hread
  split at hread
  · next json' hj =>
    cases hread
    exact ⟨text,rfl,.present hj⟩
  · cases hread

theorem optPart_sound {α : Type} {p : Parser α} {mark : List Char} {P : List Char → α → Prop}
    (hp : ∀ {i rest a}, p i = .ok (rest,a) → ∃ text, i = mark ++ text ++ rest ∧ P text a) {o : Option α}
    (h : opt (preceded space1 p) i = .ok (rest,o)) :
    ∃ text body, i = body ++ rest ∧ PartText mark text body ∧ ((text = none ∧ o = none) ∨
      ∃ t a, text = some t ∧ o = some a ∧ P t a) := by
  rcases opt_ok.mp h with ⟨a,ha,rfl⟩ | ⟨-,rfl,rfl⟩
  · obtain ⟨mid,blanks,hb,hm⟩ := preceded_ok.mp ha
    obtain ⟨rfl,hblanks⟩ := takeSome_ok hb
    obtain ⟨text,rfl,ht⟩ := hp hm
    exact ⟨some text,_,by simp,.present hblanks,.inr ⟨text,a,rfl,rfl,ht⟩⟩
  · exact ⟨none,[],rfl,.absent,.inl ⟨rfl,rfl⟩⟩

theorem crontabLine_sound (h : crontabLine readers i = .ok (rest,some entry)) (hr : Blanks rest) :
    ∃ parts, ReadAs readers parts i entry := by
  unfold crontabLine at h
  obtain ⟨⟨i₁,timer⟩,h₁,h⟩ := bind_ok.mp h
  obtain ⟨⟨i₂,task⟩,h₂,h⟩ := bind_ok.mp h
  obtain ⟨⟨i₃,options⟩,h₃,h⟩ := bind_ok.mp h
  obtain ⟨⟨i₄,payload⟩,h₄,h⟩ := bind_ok.mp h
  cases h
  obtain ⟨mid,b₀,hb₀,ht⟩ := preceded_ok.mp h₁
  obtain ⟨rfl,hblank₀⟩ := takeWhile_ok hb₀
  obtain ⟨m,hh,d,mo,w,rfl,hfields⟩ := nomCrontabTimer_sound ht
  obtain ⟨mid,b₁,hb₁,htask⟩ := preceded_ok.mp h₂
  obtain ⟨rfl,hblank₁⟩ := takeSome_ok hb₁
  obtain ⟨name,rfl,rfl,hid⟩ := nomTaskIdentifier_sound htask
  obtain ⟨query,q,rfl,hq,hoptions⟩ := optPart_sound (P := fun qs o => OptionsText readers (some qs) o)
    nomCrontabOpts_sound h₃
  obtain ⟨json,p,rfl,hp,hpayload⟩ := optPart_sound (P := fun t j => PayloadText readers (some t) (some j))
    nomCrontabPayload_sound h₄
  refine ⟨⟨[' '].intercalate [m,hh,d,mo,w],name,query,json⟩,⟨b₀,b₁,q,p,rest,by simp,hblank₀,hblank₁,hr,hq,hp⟩,
    ⟨_,ht⟩,rfl,hid,?_,?_⟩
  · rcases hoptions with ⟨rfl,rfl⟩ | ⟨t,o,rfl,rfl,ho⟩
    · exact .absent
    · exact ho
  · rcases hpayload with ⟨rfl,rfl⟩ | ⟨t,j,rfl,rfl,hj⟩
    · exact .absent
    · exact hj

theorem crontabLine_of_body (h : crontabBody readers i = .ok (rest,some entry)) :
    crontabLine readers i = .ok (rest,some entry) := by
  have novalue : ∀ {α : Type} {p : Parser α}, value (none : Option Crontab) p i ≠ .ok (rest,some entry) := by
    intro α p h
    obtain ⟨-,-,he⟩ := map_ok.mp h
    cases he
  rcases alt_ok.mp h with h | ⟨-,h⟩
  · exact absurd h novalue
  · rcases alt_ok.mp h with h | ⟨-,h⟩
    · exact h
    · exact absurd h novalue

theorem exists_of_mem_forall₂ {α β : Type} {R : α → β → Prop} {as : List α} {bs : List β} (h : List.Forall₂ R as bs)
    {b : β} (hb : b ∈ bs) : ∃ a ∈ as, R a b := by
  induction h with
  | nil => cases hb
  | cons hr _ ih =>
    rcases List.mem_cons.mp hb with rfl | hb
    · exact ⟨_,by simp,hr⟩
    · obtain ⟨a,ha,har⟩ := ih hb
      exact ⟨a,by simp [ha],har⟩

theorem exists_readAs {text : List Char} {entries : List Crontab} (h : parseCrontab readers text = .ok entries)
    (he : entry ∈ entries) : ∃ line ∈ lines text, ∃ parts, ReadAs readers parts line entry := by
  obtain ⟨found,rfl,hfound⟩ := (parseCrontab_ok readers).mp h
  obtain ⟨part,hpart,he⟩ := List.mem_flatten.mp he
  obtain ⟨line,hline,hparse⟩ := exists_of_mem_forall₂ hfound hpart
  refine ⟨line,hline,?_⟩
  rcases line_cases readers (not_mem_of_mem_lines hline) with ⟨r,entry',⟨hbody,hr⟩,hok,-⟩ | ⟨d,⟨b,rfl⟩,herr,-⟩
  · rw [parseCrontab_of_ok hok] at hparse
    cases hparse
    rw [Option.mem_toList] at he
    cases he
    exact crontabLine_sound (crontabLine_of_body hbody) (List.dropWhile_eq_nil_iff.mp hr)
  · rw [parseCrontab_of_error herr] at hparse
    cases hparse

end

section
variable {part : CrontabPart} {item : List Char} {v : CrontabValue}

theorem isZeroStep_of_ne (h : item.head? ≠ some '*') : isZeroStep item = false := by
  unfold isZeroStep
  split
  · exact absurd rfl h
  · rfl

theorem IsNumber.head_ne {ds : List Char} {n : ℕ} (h : IsNumber ds n) (tail : List Char) :
    (ds ++ tail).head? ≠ some '*' := by
  obtain ⟨c,cs,rfl⟩ := List.exists_cons_of_ne_nil h.ne_nil
  intro hc
  cases hc
  exact absurd (h.isDigit '*' (by simp)) (by decide)

theorem ItemText.isDocumented_iff (h : ItemText part item v) : v.IsDocumented part ↔ isZeroStep item = false := by
  cases h with
  | number hds hb =>
    have hz := isZeroStep_of_ne (by simpa using IsNumber.head_ne hds [])
    exact iff_of_true hb hz
  | range hds hbl hes hbh => exact iff_of_true ⟨hbl,hbh⟩ (isZeroStep_of_ne (IsNumber.head_ne hds _))
  | any => exact iff_of_true trivial rfl
  | step hds hb =>
    rw [hds.value]
    simp [CrontabValue.IsDocumented,isZeroStep,numeral,Nat.one_le_iff_ne_zero]

theorem forall_iff_of_forall₂ {α β : Type} {R : α → β → Prop} {P : α → Prop} {Q : β → Prop}
    (hr : ∀ {a b}, R a b → (Q b ↔ P a)) {as : List α} {bs : List β} (h : List.Forall₂ R as bs) :
    (∀ b ∈ bs, Q b) ↔ ∀ a ∈ as, P a := by
  induction h with
  | nil => simp
  | cons hab _ ih => simp only [List.forall_mem_cons,hr hab,ih]

theorem FieldText.isDocumented_iff {field : List Char} {vs : List CrontabValue} (h : FieldText part field vs) :
    (∀ v ∈ vs, v.IsDocumented part) ↔ ∀ item ∈ field.splitOn ',', isZeroStep item = false :=
  forall_iff_of_forall₂ (R := ItemText part) (fun h => h.isDocumented_iff) h.splitOn

theorem timer_isDocumented_iff {text rest : List Char} {timer : CrontabTimer}
    (h : nomCrontabTimer (text ++ rest) = .ok (rest,timer)) :
    (∀ part, ∀ v ∈ timer.field part, v.IsDocumented part) ↔
      ∀ field ∈ text.splitOn ' ', ∀ item ∈ field.splitOn ',', isZeroStep item = false := by
  obtain ⟨m,hh,d,mo,w,-,hsplit,ht⟩ := exists_timerFields h
  simp only [hsplit,List.forall_mem_cons,← ht.minutes.isDocumented_iff,← ht.hours.isDocumented_iff,
    ← ht.days.isDocumented_iff,← ht.months.isDocumented_iff,← ht.dows.isDocumented_iff]
  constructor
  · intro hv
    exact ⟨hv .minute,hv .hours,hv .days,hv .months,hv .daysOfWeek,by simp⟩
  · rintro ⟨hm,hh,hd,hmo,hw,-⟩ part
    cases part with
    | minute => exact hm
    | hours => exact hh
    | days => exact hd
    | months => exact hmo
    | daysOfWeek => exact hw

end

section
variable {i rest : List Char}

theorem namesUnit_of_unit {c : Char} {o : Option ℕ} (hc : c ∈ ['w','d','h','m','s'])
    (h : opt (terminated u32 (char c)) i = .ok (rest,o)) (hr : rest = [] ∨ NamesUnit rest) : i = [] ∨ NamesUnit i := by
  rcases opt_ok.mp h with ⟨n,hn,-⟩ | ⟨-,rfl,-⟩
  · obtain ⟨mid,d,hu,hd⟩ := terminated_ok.mp hn
    obtain ⟨ds,rfl,hds,-⟩ := u32_ok.mp hu
    obtain ⟨rfl,-⟩ := char_ok.mp hd
    exact .inr ⟨[],ds,c,rest,n,rfl,hds,hc⟩
  · exact hr

theorem namesUnit_of_crontabFill {phrase : List Char} {x : List Char × CrontabFill} (h : crontabFill phrase = .ok x) :
    NamesUnit phrase ↔ phrase ≠ [] := by
  constructor
  · rintro ⟨before,ds,unit,after,n,rfl,-,-⟩
    simp
  · intro hne
    obtain ⟨⟨i₁,w⟩,hw,h₁⟩ := bind_ok.mp h
    obtain ⟨⟨i₂,d⟩,hd,h₂⟩ := bind_ok.mp h₁
    obtain ⟨⟨i₃,hh⟩,hhh,h₃⟩ := bind_ok.mp h₂
    obtain ⟨⟨i₄,m⟩,hm,h₄⟩ := bind_ok.mp h₃
    obtain ⟨⟨i₅,s⟩,hs,h₅⟩ := bind_ok.mp h₄
    obtain ⟨⟨i₆,e⟩,he,-⟩ := bind_ok.mp h₅
    have hend : i₅ = [] := by
      cases i₅ with
      | nil => rfl
      | cons c i₅ => cases he
    have h' := namesUnit_of_unit (by simp) hw (namesUnit_of_unit (by simp) hd (namesUnit_of_unit (by simp) hhh
      (namesUnit_of_unit (by simp) hm (namesUnit_of_unit (by simp) hs (.inl hend)))))
    exact h'.resolve_left hne

end

section
variable {readers : Readers} {parts : LineParts} {line : List Char} {entry : Crontab} {query : Option (List Char)}
  {options : CrontabOptions}

theorem OptionsText.max_eq
    (h : OptionsText readers query options) : options.max = (query.bind readers.serdeQs).bind QueryOption.max := by
  cases h with
  | absent => rfl
  | present hq hf => simp [hq]

theorem OptionsText.fill_cases (h : OptionsText readers query options) :
    (options.fill = none ∧ (query.bind readers.serdeQs).bind QueryOption.fill = none) ∨
      ∃ phrase x, options.fill = some x.2 ∧ (query.bind readers.serdeQs).bind QueryOption.fill = some phrase ∧
        crontabFill phrase = .ok x := by
  cases h with
  | absent => exact .inl ⟨rfl,rfl⟩
  | @present qs query fill hq hf =>
    cases hphrase : query.fill with
    | none =>
      rw [hphrase] at hf
      cases hf
      exact .inl ⟨rfl,by simp [hq,hphrase]⟩
    | some phrase =>
      rw [hphrase,Option.mapM_some] at hf
      cases hx : crontabFill phrase with
      | error e =>
        rw [hx] at hf
        cases hf
      | ok x =>
        rw [hx] at hf
        cases hf
        exact .inr ⟨phrase,x,rfl,by simp [hq,hphrase],hx⟩

theorem PayloadText.eq {text : Option (List Char)} {payload : Option Json} (h : PayloadText readers text payload) :
    payload = text.bind readers.json5 := by
  cases h with
  | absent => rfl
  | present h => exact h.symm

variable (h : ReadAs readers parts line entry)
include h

theorem ReadAs.fill_iff :
    (entry.options.fill.isSome = true → ∃ phrase, parts.fillPhrase readers = some phrase ∧ NamesUnit phrase) ↔
      parts.fillPhrase readers ≠ some [] := by
  unfold LineParts.fillPhrase LineParts.queryOption
  rcases h.options.fill_cases with ⟨hnone,hphrase⟩ | ⟨phrase,x,hsome,hphrase,hx⟩
  · simp [hnone,hphrase]
  · simp [hsome,hphrase,namesUnit_of_crontabFill hx]

theorem ReadAs.max_iff :
    (∀ n, entry.options.max = some n → 1 ≤ n) ↔ (parts.queryOption readers).bind QueryOption.max ≠ some 0 := by
  rw [show entry.options.max = (parts.queryOption readers).bind QueryOption.max from h.options.max_eq]
  constructor
  · intro hm h0
    exact absurd (hm 0 h0) (by simp)
  · intro h0 n hn
    exact Nat.one_le_iff_ne_zero.mpr fun hz => h0 (hz ▸ hn)

theorem ReadAs.documented_iff :
    Documented readers parts entry ↔ Allowed readers parts := by
  obtain ⟨rest,ht⟩ := h.timer
  have hsteps := timer_isDocumented_iff ht
  constructor
  · intro hd
    exact ⟨hsteps.mp hd.values,h.fill_iff.mp hd.fill,h.max_iff.mp hd.max,h.payload.eq ▸ hd.payload⟩
  · intro ha
    refine ⟨hsteps.mpr ha.steps,?_,h.fill_iff.mpr ha.fill,h.max_iff.mpr ha.max,h.payload.eq ▸ ha.payload⟩
    rw [h.task,String.toList_ofList]
    exact h.identifier

end

/-- An entry keeps to the documented grammar exactly when its line has no step of zero, no empty fill
phrase, no `max` of zero and no payload other than an object. -/
theorem accepted_entries_documented (readers : Readers) (text : List Char) (entries : List Crontab)
    (h : parseCrontab readers text = .ok entries) : ∀ entry ∈ entries, ∃ line ∈ lines text,
      (∃ parts, ReadAs readers parts line entry) ∧
        ∀ parts, ReadAs readers parts line entry → (Documented readers parts entry ↔ Allowed readers parts) := by
  intro entry he
  obtain ⟨line,hline,hparts⟩ := exists_readAs h he
  exact ⟨line,hline,hparts,fun parts hread => hread.documented_iff⟩

def bareEntry (minute : CrontabValue) : Crontab := { timer := { minutes := [minute] }, taskIdentifier := "t" }

theorem parseCrontab_five : parseCrontab noReaders "5 * * * * t".toList = .ok [bareEntry (.number 5)] := rfl

theorem bareEntry_values {n : ℕ} (hn : CrontabPart.minute.InBounds n) (part : CrontabPart) :
    ∀ v ∈ (bareEntry (.number n)).timer.field part, v.IsDocumented part := by
  cases part with
  | minute => simpa [bareEntry,CrontabTimer.field,CrontabValue.IsDocumented] using hn
  | hours => simp [bareEntry,CrontabTimer.field,CrontabValue.IsDocumented]
  | days => simp [bareEntry,CrontabTimer.field,CrontabValue.IsDocumented]
  | months => simp [bareEntry,CrontabTimer.field,CrontabValue.IsDocumented]
  | daysOfWeek => simp [bareEntry,CrontabTimer.field,CrontabValue.IsDocumented]

theorem bare_entry_documented : parseCrontab noReaders "5 * * * * t".toList = .ok [bareEntry (.number 5)] ∧
    ∃ parts, Documented noReaders parts (bareEntry (.number 5)) := by
  refine ⟨parseCrontab_five,?_⟩
  obtain ⟨line,-,⟨parts,hread⟩,hiff⟩ := accepted_entries_documented noReaders _ _ parseCrontab_five _
    (List.mem_singleton.mpr rfl)
  obtain ⟨rest,ht⟩ := hread.timer
  have hquery : parts.queryOption noReaders = none := by
    unfold LineParts.queryOption
    cases parts.query <;> rfl
  have hpayload : parts.payload.bind noReaders.json5 = none := by cases parts.payload <;> rfl
  refine ⟨parts,(hiff parts hread).mpr ⟨(timer_isDocumented_iff ht).mp (bareEntry_values (by decide)),?_,?_,?_⟩⟩
  · simp [LineParts.fillPhrase,hquery]
  · simp [hquery]
  · simp [hpayload]

theorem zero_step_accepted : parseCrontab noReaders "*/0 * * * * t".toList = .ok [bareEntry (.step 0)] ∧
    ∀ parts, ¬Documented noReaders parts (bareEntry (.step 0)) := by
  refine ⟨rfl,fun parts hd => ?_⟩
  have hstep : 1 ≤ 0 := hd.values .minute (.step 0) (List.mem_singleton.mpr rfl)
  exact absurd hstep (by decide)

end GraphileWorker.Cron

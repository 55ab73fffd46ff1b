import GraphileWorker.Cron.TimerText

/-! # The meaning of timer texts

Each field denotes a set of numbers. Days of the week are written from 0 for Sunday, but
compared from 1 for Monday, so a Sunday is found by a star only.
-/
namespace GraphileWorker.Cron
open Foundation.Parsing

def numeral (ds : List Char) : ℕ := Nat.ofDigitChars 10 ds 0

def spanDenotes (item : List Char) (x : ℕ) : Bool :=
  match item.splitOn '-' with
  | [number] => x == numeral number
  | [low,high] => decide (numeral low ≤ x) && decide (x ≤ numeral high)
  | _ => false

def itemDenotes (part : CrontabPart) (item : List Char) (x : ℕ) : Bool :=
  if item = ['*'] then decide (part.InBounds x) else spanDenotes item x

def fieldDenotes (part : CrontabPart) (field : List Char) (x : ℕ) : Bool :=
  (field.splitOn ',').any fun item => itemDenotes part item x

def fieldOf (text : List Char) (k : ℕ) : List Char := (text.splitOn ' ').getD k []

def dayOfWeek (t : NaiveDateTime) : ℕ := weekdayFromMonday t % 7

def TextDenotes (text : List Char) (t : NaiveDateTime) : Prop :=
  fieldDenotes .minute (fieldOf text 0) (minute t) = true ∧ fieldDenotes .hours (fieldOf text 1) (hour t) = true ∧
    fieldDenotes .days (fieldOf text 2) (day t) = true ∧ fieldDenotes .months (fieldOf text 3) (month t) = true ∧
    fieldDenotes .daysOfWeek (fieldOf text 4) (dayOfWeek t) = true

instance (text : List Char) (t : NaiveDateTime) : Decidable (TextDenotes text t) :=
  inferInstanceAs (Decidable (_ ∧ _ ∧ _ ∧ _ ∧ _))

/-- It is a Sunday in the sets of the text, and the last field names it by number and not by a star. -/
def SundayByNumber (text : List Char) (t : NaiveDateTime) : Prop :=
  TextDenotes text t ∧ dayOfWeek t = 0 ∧ ['*'] ∉ (fieldOf text 4).splitOn ','

instance (text : List Char) (t : NaiveDateTime) : Decidable (SundayByNumber text t) :=
  inferInstanceAs (Decidable (_ ∧ _ ∧ _))

theorem inBounds_minute (t : ℤ) : CrontabPart.minute.InBounds (minute t) := by
  simp only [CrontabPart.InBounds,CrontabPart.boundaries,minute]
  omega

theorem inBounds_hour (t : ℤ) : CrontabPart.hours.InBounds (hour t) := by
  simp only [CrontabPart.InBounds,CrontabPart.boundaries,hour]
  omega

theorem inBounds_day (t : ℤ) : CrontabPart.days.InBounds (day t) := by
  simp only [CrontabPart.InBounds,CrontabPart.boundaries,day,monthFromMarch]
  generalize dayOfMarchYear (dayNumber t) = n
  omega

theorem inBounds_month (t : ℤ) : CrontabPart.months.InBounds (month t) := by
  simp only [CrontabPart.InBounds,CrontabPart.boundaries,month]
  omega

theorem weekdayFromMonday_bounds (t : ℤ) : 1 ≤ weekdayFromMonday t ∧ weekdayFromMonday t ≤ 7 := by
  unfold weekdayFromMonday
  omega

section
variable {part : CrontabPart} {item : List Char} {v : CrontabValue} {x offset : ℕ}

theorem number_ne_star {n : ℕ} (h : IsNumber item n) : item ≠ ['*'] := by
  rintro rfl
  exact absurd (h.isDigit '*' (by simp)) (by decide)

theorem range_ne_star (ds es : List Char) : ds ++ '-' :: es ≠ ['*'] := by
  intro he
  have hm : '-' ∈ ds ++ '-' :: es := by simp
  rw [he] at hm
  exact absurd hm (by decide)

theorem spanDenotes_number {n : ℕ} (h : IsNumber item n) : spanDenotes item x = (x == n) := by
  unfold spanDenotes
  rw [List.splitOn_eq_singleton (not_mem_isNumber h (by decide))]
  show (x == Nat.ofDigitChars 10 item 0) = (x == n)
  rw [← h.value]

theorem spanDenotes_range {ds es : List Char} {low high : ℕ} (hl : IsNumber ds low) (hh : IsNumber es high) :
    spanDenotes (ds ++ '-' :: es) x = (decide (low ≤ x) && decide (x ≤ high)) := by
  unfold spanDenotes
  rw [List.splitOn_append_cons_self_of_not_mem (not_mem_isNumber hl (by decide)),
    List.splitOn_eq_singleton (not_mem_isNumber hh (by decide))]
  show (decide (Nat.ofDigitChars 10 ds 0 ≤ x) && decide (x ≤ Nat.ofDigitChars 10 es 0)) = _
  rw [← hl.value,← hh.value]

theorem matchValue_eq (h : ItemText part item v) (hs : '/' ∉ item) (hx : part.InBounds x) :
    v.matchValue x offset = itemDenotes part item x := by
  cases h with
  | number hn =>
    rw [itemDenotes,if_neg (number_ne_star hn),spanDenotes_number hn]
    rfl
  | range hl _ hh =>
    rw [itemDenotes,if_neg (range_ne_star _ _),spanDenotes_range hl hh]
    rfl
  | any => simp [CrontabValue.matchValue,itemDenotes,hx]
  | step => simp at hs

theorem matchValue_seven (offset : ℕ) (h : ItemText .daysOfWeek item v) (hs : '/' ∉ item) :
    v.matchValue 7 offset = decide (item = ['*']) := by
  cases h with
  | number hn hb =>
    have h6 := hb.2
    simp only [CrontabPart.boundaries] at h6
    simp only [CrontabValue.matchValue,number_ne_star hn,decide_false,beq_eq_false_iff_ne,ne_eq]
    omega
  | @range ds es low high hl _ hh hb =>
    have h6 := hb.2
    simp only [CrontabPart.boundaries] at h6
    simp only [CrontabValue.matchValue,range_ne_star ds es,decide_false,Bool.and_eq_false_iff,decide_eq_false_iff_not]
    omega
  | any => rfl
  | step => simp at hs

theorem any_eq_of_forall₂ {items : List (List Char)} {vs : List CrontabValue} {f : CrontabValue → Bool}
    {g : List Char → Bool} (h : List.Forall₂ (ItemText part) items vs)
    (hfg : ∀ item ∈ items, ∀ v, ItemText part item v → f v = g item) : vs.any f = items.any g := by
  induction h with
  | nil => rfl
  | cons hi _ ih =>
    obtain ⟨hfirst,hrest⟩ := List.forall_mem_cons.mp hfg
    rw [List.any_cons,List.any_cons,hfirst _ hi,ih hrest]

end

theorem not_mem_splitOn {c sep : Char} {l piece : List Char} (h : c ∉ l) (hp : piece ∈ l.splitOn sep) : c ∉ piece := by
  intro hc
  have he : [sep].intercalate (l.splitOn sep) = l := List.intercalate_splitOn sep
  refine h ?_
  rw [← he]
  generalize l.splitOn sep = pieces at hp
  cases pieces with
  | nil => exact absurd hp List.not_mem_nil
  | cons p ps =>
    rw [intercalate_cons_eq,List.mem_append,List.mem_flatMap]
    rcases List.mem_cons.mp hp with rfl | hp
    · exact .inl hc
    · exact .inr ⟨piece,hp,List.mem_cons_of_mem sep hc⟩

section
variable {part : CrontabPart} {field : List Char} {vs : List CrontabValue}

theorem any_matchValue (h : FieldText part field vs) (hs : '/' ∉ field) {x : ℕ} (hx : part.InBounds x) (offset : ℕ) :
    vs.any (CrontabValue.matchValue x offset) = fieldDenotes part field x :=
  any_eq_of_forall₂ h.splitOn fun _ hm _ hi => matchValue_eq hi (not_mem_splitOn hs hm) hx

theorem any_matchValue_seven (h : FieldText .daysOfWeek field vs) (hs : '/' ∉ field) (offset : ℕ) :
    vs.any (CrontabValue.matchValue 7 offset) = decide (['*'] ∈ field.splitOn ',') := by
  have ha := any_eq_of_forall₂ h.splitOn fun _ hm _ hi => matchValue_seven offset hi (not_mem_splitOn hs hm)
  rw [ha,Bool.eq_iff_iff,List.any_eq_true,decide_eq_true_eq]
  constructor
  · rintro ⟨item,hm,he⟩
    rwa [← of_decide_eq_true he]
  · intro hm
    exact ⟨['*'],hm,decide_eq_true rfl⟩

/-- Days of the week, counted from Monday, against the field, counted from Sunday. -/
theorem any_dows (h : FieldText .daysOfWeek field vs) (hs : '/' ∉ field) (t : ℤ) :
    vs.any (CrontabValue.matchValue (weekdayFromMonday t) 1) =
      if dayOfWeek t = 0 then decide (['*'] ∈ field.splitOn ',') else fieldDenotes .daysOfWeek field (dayOfWeek t) := by
  have hb := weekdayFromMonday_bounds t
  unfold dayOfWeek
  by_cases h7 : weekdayFromMonday t = 7
  · rw [h7]
    exact any_matchValue_seven h hs 1
  · have he : weekdayFromMonday t % 7 = weekdayFromMonday t := Nat.mod_eq_of_lt (by omega)
    rw [he,if_neg (by omega)]
    refine any_matchValue h hs ?_ 1
    simp only [CrontabPart.InBounds,CrontabPart.boundaries]
    omega

end

variable {timer : CrontabTimer} {d : Weekday}

theorem shouldRunAt_eq {text rest : List Char}
    (h : nomCrontabTimer (text ++ rest) = .ok (rest,timer)) (hs : '/' ∉ text) (t : ℤ) :
    timer.shouldRunAt t = (fieldDenotes .minute (fieldOf text 0) (minute t) &&
      fieldDenotes .hours (fieldOf text 1) (hour t) && fieldDenotes .days (fieldOf text 2) (day t) &&
      fieldDenotes .months (fieldOf text 3) (month t) &&
      if dayOfWeek t = 0 then decide (['*'] ∈ (fieldOf text 4).splitOn ',')
      else fieldDenotes .daysOfWeek (fieldOf text 4) (dayOfWeek t)) := by
  obtain ⟨m,h,d,mo,w,-,hsplit,hf⟩ := exists_timerFields h
  have hnone : ∀ f ∈ [m,h,d,mo,w], '/' ∉ f := by
    rw [← hsplit]
    exact fun _ hm => not_mem_splitOn hs hm
  simp only [fieldOf,hsplit,List.getD_cons_zero,List.getD_cons_succ]
  unfold CrontabTimer.shouldRunAt
  rw [any_matchValue hf.minutes (hnone m (by simp)) (inBounds_minute t) 0,
    any_matchValue hf.hours (hnone h (by simp)) (inBounds_hour t) 0,
    any_matchValue hf.days (hnone d (by simp)) (inBounds_day t) 1,
    any_matchValue hf.months (hnone mo (by simp)) (inBounds_month t) 1,any_dows hf.dows (hnone w (by simp)) t]

def weeklyText (weekday : Weekday) (hour minute : ℕ) : List Char :=
  [' '].intercalate [Nat.toDigits 10 minute,Nat.toDigits 10 hour,['*'],['*'],Nat.toDigits 10 weekday.numDaysFromSunday]

section
variable {part : CrontabPart} {v : CrontabValue} {vs : List CrontabValue} {n : ℕ}

theorem not_mem_toDigits (n : ℕ) {c : Char} (hc : c.isDigit = false) : c ∉ Nat.toDigits 10 n := by
  intro hm
  rw [Nat.isDigit_of_mem_toDigits (by decide) (by decide) hm] at hc
  cases hc

theorem fieldText_single {t : List Char} (hc : ',' ∉ t) (h : FieldText part t vs) :
    ∃ v, vs = [v] ∧ ItemText part t v := by
  have hs := h.splitOn
  rw [List.splitOn_eq_singleton hc] at hs
  obtain ⟨v,rest,hv,hrest,rfl⟩ := List.forall₂_cons_left_iff.mp hs
  cases hrest
  exact ⟨v,rfl,hv⟩

theorem itemText_toDigits (h : ItemText part (Nat.toDigits 10 n) v) : v = .number n ∧ part.InBounds n := by
  generalize ht : Nat.toDigits 10 n = t at h
  have hno : ∀ c : Char, c.isDigit = false → c ∉ t := fun c hc => ht ▸ not_mem_toDigits n hc
  cases h with
  | @number _ m hm hb =>
    have he : m = n := by rw [hm.value,← ht,Nat.ofDigitChars_ten_toDigits]
    rw [← he]
    exact ⟨rfl,hb⟩
  | range => exact absurd (by simp) (hno '-' (by decide))
  | any => exact absurd (by simp) (hno '*' (by decide))
  | step => exact absurd (by simp) (hno '*' (by decide))

theorem itemText_star (h : ItemText part ['*'] v) : v = .any := by
  generalize ht : ['*'] = t at h
  cases h with
  | any => rfl
  | number hn => exact absurd ht.symm (number_ne_star hn)
  | range => exact absurd ht.symm (range_ne_star _ _)
  | step => simp at ht

theorem fieldText_number (hn : part.InBounds n) (hlt : n < 4294967296) :
    FieldText part (Nat.toDigits 10 n) [.number n] :=
  ⟨[Nat.toDigits 10 n],by simp,by simp,.cons (.number (isNumber_toDigits hlt) hn) .nil⟩

theorem fieldText_star : FieldText part ['*'] [.any] := ⟨[['*']],by simp,by simp,.cons .any .nil⟩

end

theorem weeklyOn_ok {h m : ℕ} : CrontabTimer.weeklyOn d h m = .ok timer ↔
    CrontabPart.minute.InBounds m ∧ CrontabPart.hours.InBounds h ∧
      timer = ⟨[.number m],[.number h],[.any],[.any],[.number d.numberFromMonday]⟩ := by
  have hv : ∀ field (n : ℕ) v, CrontabValue.numberOf field n = .ok v ↔
      (field.bounds.1 ≤ n ∧ n ≤ field.bounds.2) ∧ v = .number n := by
    intro field n v
    simp only [CrontabValue.numberOf,CrontabValue.validate,bind_ok,pure,Except.pure,Except.ok.injEq]
    by_cases hr : n < field.bounds.1 ∨ n > field.bounds.2
    · simp only [if_pos hr,reduceCtorEq,false_and,exists_false,false_iff,not_and]
      omega
    · simp only [if_neg hr,Except.ok.injEq,exists_eq_left']
      constructor
      · rintro rfl
        exact ⟨by omega,rfl⟩
      · rintro ⟨-,rfl⟩
        rfl
  unfold CrontabTimer.weeklyOn
  simp only [bind_ok,hv,pure,Except.pure,Except.ok.injEq]
  constructor
  · rintro ⟨_,⟨hm,rfl⟩,_,⟨hh,rfl⟩,rfl⟩
    exact ⟨hm,hh,rfl⟩
  · rintro ⟨hm,hh,rfl⟩
    exact ⟨_,⟨hm,rfl⟩,_,⟨hh,rfl⟩,rfl⟩

theorem nomCrontabTimer_weeklyText {h m : ℕ} :
    nomCrontabTimer (weeklyText d h m) = .ok ([],timer) ↔ CrontabPart.minute.InBounds m ∧ CrontabPart.hours.InBounds h ∧
      timer = ⟨[.number m],[.number h],[.any],[.any],[.number d.numDaysFromSunday]⟩ := by
  have hsplit : (weeklyText d h m).splitOn ' ' =
      [Nat.toDigits 10 m,Nat.toDigits 10 h,['*'],['*'],Nat.toDigits 10 d.numDaysFromSunday] := by
    refine List.splitOn_intercalate ' ' ?_ (by simp)
    intro l hl
    simp only [List.mem_cons,List.not_mem_nil,or_false] at hl
    rcases hl with rfl | rfl | rfl | rfl | rfl
    · exact not_mem_toDigits _ (by decide)
    · exact not_mem_toDigits _ (by decide)
    · decide
    · decide
    · exact not_mem_toDigits _ (by decide)
  constructor
  · intro hp
    rw [← List.append_nil (weeklyText d h m)] at hp
    obtain ⟨fm,fh,fd,fmo,fw,-,hs,hf⟩ := exists_timerFields hp
    rw [hsplit] at hs
    simp only [List.cons.injEq,and_true] at hs
    obtain ⟨rfl,rfl,rfl,rfl,rfl⟩ := hs
    obtain ⟨vm,hvm,him⟩ := fieldText_single (not_mem_toDigits _ (by decide)) hf.minutes
    obtain ⟨vh,hvh,hih⟩ := fieldText_single (not_mem_toDigits _ (by decide)) hf.hours
    obtain ⟨vd,hvd,hid⟩ := fieldText_single (by decide) hf.days
    obtain ⟨vmo,hvmo,himo⟩ := fieldText_single (by decide) hf.months
    obtain ⟨vw,hvw,hiw⟩ := fieldText_single (not_mem_toDigits _ (by decide)) hf.dows
    obtain ⟨rfl,hbm⟩ := itemText_toDigits him
    obtain ⟨rfl,hbh⟩ := itemText_toDigits hih
    obtain rfl := itemText_star hid
    obtain rfl := itemText_star himo
    obtain ⟨rfl,-⟩ := itemText_toDigits hiw
    refine ⟨hbm,hbh,?_⟩
    cases timer
    simp only at hvm hvh hvd hvmo hvw
    rw [hvm,hvh,hvd,hvmo,hvw]
  · rintro ⟨hbm,hbh,rfl⟩
    have hbw : CrontabPart.daysOfWeek.InBounds d.numDaysFromSunday := by cases d <;> decide
    have hw : FieldText .daysOfWeek (Nat.toDigits 10 d.numDaysFromSunday) [.number d.numDaysFromSunday] :=
      fieldText_number hbw (hbw.2.trans_lt (by decide))
    have hfields : TimerFields (Nat.toDigits 10 m) (Nat.toDigits 10 h) ['*'] ['*']
        (Nat.toDigits 10 d.numDaysFromSunday) []
        ⟨[.number m],[.number h],[.any],[.any],[.number d.numDaysFromSunday]⟩ :=
      ⟨fieldText_number hbm (hbm.2.trans_lt (by decide)),fieldText_number hbh (hbh.2.trans_lt (by decide)),
        fieldText_star,fieldText_star,hw,crontabValues_complete hw (by simp [Follows]) (by simp)⟩
    have hc := nomCrontabTimer_complete hfields
    rwa [List.append_nil] at hc

theorem numberFromMonday_eq (h : d ≠ .sun) : d.numberFromMonday = d.numDaysFromSunday := by
  cases d with
  | sun => exact absurd rfl h
  | mon | tue | wed | thu | fri | sat => rfl

/-- The first Sunday after the epoch, at this hour and minute. -/
def firstSunday (h m : ℕ) : NaiveDateTime := 3 * (24 * 60 * oneMinute) + h * (60 * oneMinute) + m * oneMinute

theorem shouldRunAt_firstSunday {h m : ℕ} (hh : h ≤ 23) (hm : m ≤ 59) (k : ℕ) :
    (⟨[.number m],[.number h],[.any],[.any],[.number k]⟩ : CrontabTimer).shouldRunAt (firstSunday h m) = (7 == k) := by
  have hminute : minute (firstSunday h m) = m := by
    unfold minute firstSunday oneMinute oneSecond
    omega
  have hhour : hour (firstSunday h m) = h := by
    unfold hour firstSunday oneMinute oneSecond
    omega
  have hday : weekdayFromMonday (firstSunday h m) = 7 := by
    unfold weekdayFromMonday dayNumber firstSunday oneMinute oneSecond
    omega
  simp [CrontabTimer.shouldRunAt,CrontabValue.matchValue,hminute,hhour,hday]

/-- An accepted text without steps runs exactly when it denotes the time, except on Sundays that its last
field names by number and not by a star. -/
theorem timer_runs_when_denoted (text rest : List Char) (timer : CrontabTimer)
    (hp : nomCrontabTimer (text ++ rest) = .ok (rest,timer)) (hs : '/' ∉ text) (t : NaiveDateTime) :
    ((timer.shouldRunAt t = true ↔ TextDenotes text t) ↔ ¬SundayByNumber text t) ∧
    ∀ (d : Weekday) (h m : ℕ),
      ((∀ typed, CrontabTimer.weeklyOn d h m = .ok typed ↔ nomCrontabTimer (weeklyText d h m) = .ok ([],typed)) ↔
        ¬(d = .sun ∧ CrontabPart.hours.InBounds h ∧ CrontabPart.minute.InBounds m)) ∧
      ((∃ typed parsed t, CrontabTimer.weeklyOn d h m = .ok typed ∧
          nomCrontabTimer (weeklyText d h m) = .ok ([],parsed) ∧ typed.shouldRunAt t ≠ parsed.shouldRunAt t) ↔
        d = .sun ∧ CrontabPart.hours.InBounds h ∧ CrontabPart.minute.InBounds m) := by
  have hrun := shouldRunAt_eq hp hs t
  refine ⟨?_,fun d h m => ⟨?_,?_⟩⟩
  · constructor
    · rintro hiff ⟨hdenotes,h0,hstar⟩
      have hfalse : timer.shouldRunAt t = false := by rw [hrun,if_pos h0,decide_eq_false hstar,Bool.and_false]
      rw [hiff.mpr hdenotes] at hfalse
      cases hfalse
    · intro hn
      rw [hrun]
      unfold SundayByNumber at hn
      unfold TextDenotes at hn ⊢
      simp only [Bool.and_eq_true,and_assoc] at hn ⊢
      refine and_congr_right fun h₁ => and_congr_right fun h₂ => and_congr_right fun h₃ => and_congr_right fun h₄ => ?_
      by_cases h0 : dayOfWeek t = 0
      · rw [if_pos h0,decide_eq_true_eq]
        constructor
        · rw [h0]
          exact fun hstar => List.any_eq_true.mpr ⟨['*'],hstar,by decide⟩
        · intro hdenotes
          by_contra hstar
          exact hn ⟨h₁,h₂,h₃,h₄,hdenotes,h0,hstar⟩
      · rw [if_neg h0]
  · constructor
    · rintro hsame ⟨rfl,hh,hm⟩
      have htyped := (hsame _).mp (weeklyOn_ok.mpr ⟨hm,hh,rfl⟩)
      have hdows := congrArg CrontabTimer.dows (nomCrontabTimer_weeklyText.mp htyped).2.2
      simp only [List.cons.injEq,CrontabValue.number.injEq,and_true] at hdows
      exact absurd hdows (by decide)
    · intro hn typed
      rw [weeklyOn_ok,nomCrontabTimer_weeklyText]
      refine and_congr_right fun hm => and_congr_right fun hh => ?_
      rw [numberFromMonday_eq fun hd => hn ⟨hd,hh,hm⟩]
  · constructor
    · rintro ⟨typed,parsed,t,htyped,hparsed,hne⟩
      obtain ⟨hm,hh,rfl⟩ := weeklyOn_ok.mp htyped
      obtain ⟨-,-,rfl⟩ := nomCrontabTimer_weeklyText.mp hparsed
      refine ⟨?_,hh,hm⟩
      by_contra hd
      exact hne (by rw [numberFromMonday_eq hd])
    · rintro ⟨rfl,hh,hm⟩
      refine ⟨_,_,firstSunday h m,weeklyOn_ok.mpr ⟨hm,hh,rfl⟩,nomCrontabTimer_weeklyText.mpr ⟨hm,hh,rfl⟩,?_⟩
      rw [shouldRunAt_firstSunday hh.2 hm.2,shouldRunAt_firstSunday hh.2 hm.2]
      decide

def mondayMorning : NaiveDateTime := (4 * 86400 + 8 * 3600) * oneSecond

theorem monday_runs_when_denoted : ∃ timer, nomCrontabTimer (weeklyText .mon 8 0) = .ok ([],timer) ∧
    '/' ∉ weeklyText .mon 8 0 ∧ ¬SundayByNumber (weeklyText .mon 8 0) mondayMorning ∧
    TextDenotes (weeklyText .mon 8 0) mondayMorning ∧ timer.shouldRunAt mondayMorning = true ∧
    CrontabTimer.weeklyOn .mon 8 0 = .ok timer := by
  have hp : nomCrontabTimer (weeklyText .mon 8 0) = .ok ([],⟨[.number 0],[.number 8],[.any],[.any],[.number 1]⟩) := rfl
  have hs : '/' ∉ weeklyText .mon 8 0 := by decide
  have hn : ¬SundayByNumber (weeklyText .mon 8 0) mondayMorning := by decide
  have hd : TextDenotes (weeklyText .mon 8 0) mondayMorning := by decide
  obtain ⟨hrun,htyped⟩ := timer_runs_when_denoted (weeklyText .mon 8 0) [] _ hp hs mondayMorning
  exact ⟨_,hp,hs,hn,hd,(hrun.mpr hn).mpr hd,((htyped .mon 8 0).1.mpr (by decide) _).mpr hp⟩

def sundayMidnight : NaiveDateTime := 3 * 86400 * oneSecond

/-- `0 0 * * 0` denotes Sundays at midnight and does not run then; the typed timer does. -/
theorem sunday_by_number_not_run : ∃ parsed typed, weeklyText .sun 0 0 = ['0',' ','0',' ','*',' ','*',' ','0'] ∧
    nomCrontabTimer (weeklyText .sun 0 0) = .ok ([],parsed) ∧ '/' ∉ weeklyText .sun 0 0 ∧
    TextDenotes (weeklyText .sun 0 0) sundayMidnight ∧ parsed.shouldRunAt sundayMidnight = false ∧
    CrontabTimer.weeklyOn .sun 0 0 = .ok typed ∧ typed.shouldRunAt sundayMidnight = true :=
  ⟨⟨[.number 0],[.number 0],[.any],[.any],[.number 0]⟩,⟨[.number 0],[.number 0],[.any],[.any],[.number 7]⟩,
    by decide,rfl,by decide,by decide,by decide,rfl,by decide⟩

end GraphileWorker.Cron

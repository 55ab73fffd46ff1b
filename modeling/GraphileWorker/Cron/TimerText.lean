import GraphileWorker.Cron.Parser

/-! # The grammar of timers

What the timer parsers accept. Items and fields contain no separators, so splitting an
accepted text gives them back.
-/
namespace GraphileWorker.Cron
open Foundation.Parsing

def CrontabPart.InBounds (part : CrontabPart) (n : ℕ) : Prop := part.boundaries.1 ≤ n ∧ n ≤ part.boundaries.2

instance (part : CrontabPart) (n : ℕ) : Decidable (part.InBounds n) := inferInstanceAs (Decidable (_ ∧ _))

inductive ItemText (part : CrontabPart) : List Char → CrontabValue → Prop
  | number {ds : List Char} {n : ℕ} (h : IsNumber ds n) (hb : part.InBounds n) : ItemText part ds (.number n)
  | range {ds es : List Char} {low high : ℕ} (hl : IsNumber ds low) (hbl : part.InBounds low) (hh : IsNumber es high)
      (hbh : part.InBounds high) (hlt : low < high) : ItemText part (ds ++ '-' :: es) (.range low high)
  | any : ItemText part ['*'] .any
  | step {ds : List Char} {n : ℕ} (h : IsNumber ds n) (hb : part.InBounds n) :
      ItemText part ('*' :: '/' :: ds) (.step n)

variable {part : CrontabPart} {i rest t field : List Char} {n : ℕ} {v : CrontabValue} {c : Char}
  {vs : List CrontabValue} {ts : List (List Char)} {timer : CrontabTimer}

theorem crontabNumber_ok : crontabNumber part i = .ok (rest,n) ↔
    ∃ ds, i = ds ++ rest ∧ IsNumber ds n ∧ NoDigit rest ∧ part.InBounds n := by
  unfold crontabNumber
  rw [verify_ok,u32_ok]
  simp only [Bool.and_eq_true,decide_eq_true_eq,CrontabPart.InBounds]
  constructor
  · rintro ⟨⟨ds,hi,hds,hr⟩,hb⟩
    exact ⟨ds,hi,hds,hr,hb⟩
  · rintro ⟨ds,hi,hds,hr,hb⟩
    exact ⟨⟨ds,hi,hds,hr⟩,hb⟩

theorem plain_crontabNumber (part : CrontabPart) : Plain (crontabNumber part) := plain_u32.verify _

theorem plain_crontabRange (part : CrontabPart) : Plain (crontabRange part) :=
  ((plain_crontabNumber part).separatedPair (plain_char '-') (plain_crontabNumber part)).verify _

theorem plain_crontabStep (part : CrontabPart) : Plain (preceded (char '/') (crontabNumber part)) :=
  (plain_char '/').preceded (plain_crontabNumber part)

theorem plain_crontabWildcard (part : CrontabPart) : Plain (crontabWildcard part) :=
  (plain_char '*').preceded (plain_crontabStep part).opt

theorem crontabValue_sound (h : crontabValue part i = .ok (rest,v)) : ∃ t, i = t ++ rest ∧ ItemText part t v := by
  unfold crontabValue at h
  rcases alt_ok.mp h with h | ⟨-,h⟩
  · obtain ⟨⟨low,high⟩,hr,rfl⟩ := map_ok.mp h
    obtain ⟨hr,hlt⟩ := verify_ok.mp hr
    obtain ⟨mid,mid',c,hl,hc,hh⟩ := separatedPair_ok.mp hr
    obtain ⟨ds,rfl,hds,-,hbl⟩ := crontabNumber_ok.mp hl
    obtain ⟨rfl,-⟩ := char_ok.mp hc
    obtain ⟨es,rfl,hes,-,hbh⟩ := crontabNumber_ok.mp hh
    exact ⟨ds ++ '-' :: es,by simp,.range hds hbl hes hbh (by simpa using hlt)⟩
  · rcases alt_ok.mp h with h | ⟨-,h⟩
    · obtain ⟨divider,hw,rfl⟩ := map_ok.mp h
      obtain ⟨mid,c,hc,ho⟩ := preceded_ok.mp hw
      obtain ⟨rfl,-⟩ := char_ok.mp hc
      rcases opt_ok.mp ho with ⟨n,hs,rfl⟩ | ⟨-,rfl,rfl⟩
      · obtain ⟨mid',c,hc,hn⟩ := preceded_ok.mp hs
        obtain ⟨rfl,-⟩ := char_ok.mp hc
        obtain ⟨ds,rfl,hds,-,hb⟩ := crontabNumber_ok.mp hn
        exact ⟨'*' :: '/' :: ds,rfl,.step hds hb⟩
      · exact ⟨['*'],rfl,.any⟩
    · obtain ⟨n,hn,rfl⟩ := map_ok.mp h
      obtain ⟨ds,rfl,hds,-,hb⟩ := crontabNumber_ok.mp hn
      exact ⟨ds,rfl,.number hds hb⟩

/-- What may follow an item: a comma, a blank, a tab or nothing. -/
def Follows (rest : List Char) : Prop := ∀ c ∈ rest.head?, c = ',' ∨ c = ' ' ∨ c = '\t'

theorem Follows.noDigit (h : Follows rest) : NoDigit rest := by
  intro c hc
  rcases h c hc with rfl | rfl | rfl <;> rfl

theorem Follows.ne_cons (h : Follows rest) (hc : c ∉ [',',' ','\t']) (tail : List Char) : rest ≠ c :: tail := by
  rintro rfl
  exact hc (by simpa using h c rfl)

theorem crontabNumber_star (r : List Char × ℕ) : crontabNumber part ('*' :: rest) ≠ .ok r := by
  intro h
  obtain ⟨ds,hi,hds,-,-⟩ := crontabNumber_ok.mp h
  obtain ⟨c,tail,rfl⟩ := List.exists_cons_of_ne_nil hds.ne_nil
  rw [List.cons_append,List.cons.injEq] at hi
  have hc := hds.isDigit c (by simp)
  rw [← hi.1] at hc
  exact absurd hc (by decide)

theorem crontabRange_star (r : List Char × ℕ × ℕ) : crontabRange part ('*' :: rest) ≠ .ok r := by
  intro h
  obtain ⟨mid,-,-,hl,-,-⟩ := separatedPair_ok.mp (verify_ok.mp h).1
  exact crontabNumber_star _ hl

theorem crontabValue_star {o : Option ℕ} (h : crontabWildcard part ('*' :: i) = .ok (rest,o)) :
    crontabValue part ('*' :: i) = .ok (rest,(o.map CrontabValue.step).getD .any) := by
  refine alt_ok.mpr (.inr ⟨?_,alt_ok.mpr (.inl (map_ok.mpr ⟨o,h,rfl⟩))⟩)
  refine ((plain_crontabRange part).map _).recoverable ?_
  rintro ⟨r,v⟩ hr
  obtain ⟨a,ha,-⟩ := map_ok.mp hr
  exact crontabRange_star _ ha

theorem crontabValue_complete (h : ItemText part t v) (hf : Follows rest) :
    crontabValue part (t ++ rest) = .ok (rest,v) := by
  cases h with
  | any =>
    refine crontabValue_star (o := none) (preceded_ok.mpr ⟨rest,'*',char_ok.mpr ⟨rfl,rfl⟩,?_⟩)
    refine opt_ok.mpr (.inr ⟨(plain_crontabStep part).recoverable ?_,rfl,rfl⟩)
    rintro ⟨r,n⟩ hr
    obtain ⟨mid,c,hc,-⟩ := preceded_ok.mp hr
    exact hf.ne_cons (by decide) mid (char_ok.mp hc).1
  | @step ds n hds hb =>
    refine crontabValue_star (o := some n) (preceded_ok.mpr ⟨_,'*',char_ok.mpr ⟨rfl,rfl⟩,?_⟩)
    refine opt_ok.mpr (.inl ⟨n,preceded_ok.mpr ⟨ds ++ rest,'/',char_ok.mpr ⟨rfl,rfl⟩,?_⟩,rfl⟩)
    exact crontabNumber_ok.mpr ⟨ds,rfl,hds,hf.noDigit,hb⟩
  | @range ds es low high hds hbl hes hbh hlt =>
    refine alt_ok.mpr (.inl (map_ok.mpr ⟨(low,high),verify_ok.mpr ⟨?_,by simpa using hlt⟩,rfl⟩))
    refine separatedPair_ok.mpr ⟨'-' :: (es ++ rest),es ++ rest,'-',?_,char_ok.mpr ⟨rfl,rfl⟩,?_⟩
    · exact crontabNumber_ok.mpr ⟨ds,by simp,hds,by simp [NoDigit],hbl⟩
    · exact crontabNumber_ok.mpr ⟨es,rfl,hes,hf.noDigit,hbh⟩
  | number hds hb =>
    have hnum := crontabNumber_ok.mpr ⟨t,rfl,hds,hf.noDigit,hb⟩
    refine alt_ok.mpr (.inr ⟨((plain_crontabRange part).map _).recoverable ?_,
      alt_ok.mpr (.inr ⟨((plain_crontabWildcard part).map _).recoverable ?_,map_ok.mpr ⟨_,hnum,rfl⟩⟩)⟩)
    · -- the number is read, and no hyphen follows it
      rintro ⟨r,v⟩ hr
      obtain ⟨⟨a,b⟩,hr,-⟩ := map_ok.mp hr
      obtain ⟨mid,mid',c,hl,hc,-⟩ := separatedPair_ok.mp (verify_ok.mp hr).1
      rw [hnum] at hl
      cases hl
      exact hf.ne_cons (by decide) mid' (char_ok.mp hc).1
    · rintro ⟨r,v⟩ hr
      obtain ⟨o,hr,-⟩ := map_ok.mp hr
      obtain ⟨mid,c,hc,-⟩ := preceded_ok.mp hr
      rw [(char_ok.mp hc).1] at hnum
      exact crontabNumber_star _ hnum

def FieldText (part : CrontabPart) (field : List Char) (vs : List CrontabValue) : Prop :=
  ∃ ts, field = [','].intercalate ts ∧ ts ≠ [] ∧ List.Forall₂ (ItemText part) ts vs

theorem crontabValues_sound (h : crontabValues part i = .ok (rest,vs)) :
    ∃ field, i = field ++ rest ∧ FieldText part field vs := by
  obtain ⟨ts,rfl,hne,hts⟩ := separatedList1_sound (fun _ _ _ => crontabValue_sound) h
  exact ⟨_,rfl,ts,rfl,hne,hts⟩

theorem crontabValues_complete (h : FieldText part field vs)
    (hf : Follows rest) (hn : ∀ c ∈ rest.head?, c ≠ ',') : crontabValues part (field ++ rest) = .ok (rest,vs) := by
  obtain ⟨ts,rfl,hne,hts⟩ := h
  exact separatedList1_complete (F := Follows) (fun _ _ _ => crontabValue_complete)
    (fun _ c hc => .inl (by simpa using hc.symm)) hf hn hne hts

theorem not_mem_isNumber {ds : List Char} (h : IsNumber ds n) (hc : c.isDigit = false) : c ∉ ds := by
  intro hm
  rw [h.isDigit c hm] at hc
  cases hc

theorem ItemText.not_mem (h : ItemText part t v) (hc : c = ',' ∨ c = ' ') : c ∉ t := by
  have hd : c.isDigit = false := by rcases hc with rfl | rfl <;> rfl
  have hs : c ≠ '*' ∧ c ≠ '/' ∧ c ≠ '-' := by rcases hc with rfl | rfl <;> decide
  cases h with
  | number hds => exact not_mem_isNumber hds hd
  | range hds _ hes => simp [not_mem_isNumber hds hd,not_mem_isNumber hes hd,hs.2.2]
  | any => simp [hs.1]
  | step hds => simp [not_mem_isNumber hds hd,hs.1,hs.2.1]

theorem forall_not_mem (h : List.Forall₂ (ItemText part) ts vs) (hc : c = ',' ∨ c = ' ') : ∀ t ∈ ts, c ∉ t := by
  induction h with
  | nil => simp
  | cons ht _ ih =>
    intro u hu
    rcases List.mem_cons.mp hu with rfl | hu
    · exact ht.not_mem hc
    · exact ih u hu

theorem FieldText.splitOn (h : FieldText part field vs) : List.Forall₂ (ItemText part) (field.splitOn ',') vs := by
  obtain ⟨ts,rfl,hne,hts⟩ := h
  rwa [List.splitOn_intercalate ',' (forall_not_mem hts (.inl rfl)) hne]

theorem not_mem_intercalate {sep : Char} (hs : c ≠ sep) (h : ∀ t ∈ ts, c ∉ t) : c ∉ [sep].intercalate ts := by
  cases ts with
  | nil => simp
  | cons t ts =>
    rw [intercalate_cons_eq,List.mem_append,List.mem_flatMap]
    rintro (hm | ⟨u,hu,hm⟩)
    · exact h t (by simp) hm
    · rcases List.mem_cons.mp hm with he | hm
      · exact hs he
      · exact h u (by simp [hu]) hm

theorem FieldText.no_blank (h : FieldText part field vs) : ' ' ∉ field := by
  obtain ⟨ts,rfl,-,hts⟩ := h
  exact not_mem_intercalate (by decide) (forall_not_mem hts (.inr rfl))

/-- The texts of a timer, by its fields. The last field is read up to `rest`, which it depends on. -/
structure TimerFields (m h d mo w rest : List Char) (timer : CrontabTimer) : Prop where
  minutes : FieldText .minute m timer.minutes
  hours : FieldText .hours h timer.hours
  days : FieldText .days d timer.days
  months : FieldText .months mo timer.months
  dows : FieldText .daysOfWeek w timer.dows
  last : crontabValues .daysOfWeek (w ++ rest) = .ok (rest,timer.dows)

theorem nomCrontabTimer_sound (hi : nomCrontabTimer i = .ok (rest,timer)) :
    ∃ m h d mo w, i = [' '].intercalate [m,h,d,mo,w] ++ rest ∧ TimerFields m h d mo w rest timer := by
  unfold nomCrontabTimer at hi
  obtain ⟨⟨i₁,minutes⟩,h₁,hi⟩ := bind_ok.mp hi
  obtain ⟨⟨i₂,hours⟩,h₂,hi⟩ := bind_ok.mp hi
  obtain ⟨⟨i₃,days⟩,h₃,hi⟩ := bind_ok.mp hi
  obtain ⟨⟨i₄,months⟩,h₄,hi⟩ := bind_ok.mp hi
  obtain ⟨⟨i₅,dows⟩,h₅,hi⟩ := bind_ok.mp hi
  cases hi
  have field : ∀ {part : CrontabPart} {i rest : List Char} {vs : List CrontabValue},
      terminated (crontabValues part) (char ' ') i = .ok (rest,vs) →
        ∃ f, i = f ++ ' ' :: rest ∧ FieldText part f vs := by
    intro part i rest vs h
    obtain ⟨mid,c,hv,hc⟩ := terminated_ok.mp h
    obtain ⟨rfl,-⟩ := char_ok.mp hc
    exact crontabValues_sound hv
  obtain ⟨m,rfl,hm⟩ := field h₁
  obtain ⟨h,rfl,hh⟩ := field h₂
  obtain ⟨d,rfl,hd⟩ := field h₃
  obtain ⟨mo,rfl,hmo⟩ := field h₄
  obtain ⟨w,rfl,hw⟩ := crontabValues_sound h₅
  exact ⟨m,h,d,mo,w,by simp [List.intercalate_cons_cons],hm,hh,hd,hmo,hw,h₅⟩

theorem nomCrontabTimer_complete {m h d mo w : List Char} (ht : TimerFields m h d mo w rest timer) :
    nomCrontabTimer ([' '].intercalate [m,h,d,mo,w] ++ rest) = .ok (rest,timer) := by
  have field : ∀ {part : CrontabPart} {f : List Char} (rest : List Char) {vs : List CrontabValue}, FieldText part f vs →
      terminated (crontabValues part) (char ' ') (f ++ ' ' :: rest) = .ok (rest,vs) := by
    intro part f rest vs hf
    refine terminated_ok.mpr ⟨' ' :: rest,' ',crontabValues_complete hf ?_ ?_,char_ok.mpr ⟨rfl,rfl⟩⟩
    · intro c hc
      exact .inr (.inl (by simpa using hc.symm))
    · intro c hc
      rw [show c = ' ' by simpa using hc.symm]
      decide
  have he : [' '].intercalate [m,h,d,mo,w] ++ rest =
      m ++ ' ' :: (h ++ ' ' :: (d ++ ' ' :: (mo ++ ' ' :: (w ++ rest)))) := by
    simp [List.intercalate_cons_cons]
  rw [he]
  unfold nomCrontabTimer
  rw [bind_ok]
  refine ⟨_,field _ ht.minutes,bind_ok.mpr ⟨_,field _ ht.hours,bind_ok.mpr ⟨_,field _ ht.days,
    bind_ok.mpr ⟨_,field _ ht.months,bind_ok.mpr ⟨_,ht.last,rfl⟩⟩⟩⟩⟩

theorem TimerFields.splitOn {m h d mo w : List Char} (ht : TimerFields m h d mo w rest timer) :
    ([' '].intercalate [m,h,d,mo,w]).splitOn ' ' = [m,h,d,mo,w] := by
  refine List.splitOn_intercalate ' ' ?_ (by simp)
  intro l hl
  simp only [List.mem_cons,List.not_mem_nil,or_false] at hl
  rcases hl with rfl | rfl | rfl | rfl | rfl
  · exact ht.minutes.no_blank
  · exact ht.hours.no_blank
  · exact ht.days.no_blank
  · exact ht.months.no_blank
  · exact ht.dows.no_blank

theorem exists_timerFields {text : List Char} (h : nomCrontabTimer (text ++ rest) = .ok (rest,timer)) :
    ∃ m h d mo w, text = [' '].intercalate [m,h,d,mo,w] ∧ text.splitOn ' ' = [m,h,d,mo,w] ∧
      TimerFields m h d mo w rest timer := by
  obtain ⟨m,h,d,mo,w,hi,ht⟩ := nomCrontabTimer_sound h
  have he := List.append_cancel_right hi
  exact ⟨m,h,d,mo,w,he,by rw [he,ht.splitOn],ht⟩

end GraphileWorker.Cron

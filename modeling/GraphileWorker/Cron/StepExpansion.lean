import GraphileWorker.Cron.TimerMeaning

/-! # Steps as lists

A step matches the values whose remainder is the offset of the field; a step of one has
only the remainder 0, so where the offset is 1 it matches nothing.
-/
namespace GraphileWorker.Cron
open Foundation.Parsing

def stepList (low high n : ℕ) : List ℕ := (List.range ((high - low) / n + 1)).map fun k => low + k * n

def expandItem (part : CrontabPart) : List Char → List Char
  | '*' :: '/' :: ds =>
    if numeral ds = 0 then '*' :: '/' :: ds
    else [','].intercalate ((stepList part.boundaries.1 part.boundaries.2 (numeral ds)).map (Nat.toDigits 10))
  | item => item

def isUnitStep : List Char → Bool
  | '*' :: '/' :: ds => numeral ds == 1
  | _ => false

def starItem (item : List Char) : List Char := if isUnitStep item then ['*'] else item

def mapItems (f : List Char → List Char) (field : List Char) : List Char :=
  [','].intercalate ((field.splitOn ',').map f)

def mapFields (f : CrontabPart → List Char → List Char) (text : List Char) : List Char :=
  [' '].intercalate (List.zipWith (fun part => mapItems (f part)) [.minute,.hours,.days,.months,.daysOfWeek]
    (text.splitOn ' '))

def expandSteps (text : List Char) : List Char :=
  mapFields (fun part => if part = .daysOfWeek then id else expandItem part) text

def unitStepsToStars (text : List Char) : List Char := mapFields (fun _ => starItem) text

def CrontabPart.index : CrontabPart → ℕ
  | .minute => 0
  | .hours => 1
  | .days => 2
  | .months => 3
  | .daysOfWeek => 4

/-- What a field is compared with, and the remainder its steps are to have. -/
def CrontabPart.valueAt (t : NaiveDateTime) : CrontabPart → ℕ
  | .minute => Cron.minute t
  | .hours => hour t
  | .days => day t
  | .months => month t
  | .daysOfWeek => weekdayFromMonday t

def CrontabPart.stepOffset : CrontabPart → ℕ
  | .minute | .hours => 0
  | .days | .months | .daysOfWeek => 1

def itemMatches (offset x : ℕ) : List Char → Bool
  | ['*'] => true
  | '*' :: '/' :: ds => numeral ds != 0 && x % numeral ds == offset
  | item => spanDenotes item x

def CrontabPart.items (part : CrontabPart) (text : List Char) : List (List Char) :=
  (fieldOf text part.index).splitOn ','

def fieldMatches (text : List Char) (t : NaiveDateTime) (part : CrontabPart) : Bool :=
  (part.items text).any (itemMatches part.stepOffset (part.valueAt t))

def hasUnitStep (text : List Char) (part : CrontabPart) : Bool := (part.items text).any isUnitStep

/-- Every field matches or is one of these with a step of one, and not every field matches. -/
def UnitStepMissed (parts : List CrontabPart) (text : List Char) (t : NaiveDateTime) : Prop :=
  (∀ part, fieldMatches text t part = true ∨ (part ∈ parts ∧ hasUnitStep text part = true)) ∧
    ∃ part, fieldMatches text t part = false

theorem mem_stepList {low high n x : ℕ} (hn : low < n) (hl : low ≤ x) (hh : x ≤ high) :
    x ∈ stepList low high n ↔ x % n = low := by
  simp only [stepList,List.mem_map,List.mem_range]
  constructor
  · rintro ⟨k,-,rfl⟩
    rw [Nat.add_mul_mod_self_right,Nat.mod_eq_of_lt hn]
  · intro hx
    have hdiv := Nat.mod_add_div x n
    rw [hx] at hdiv
    refine ⟨x / n,?_,by rw [Nat.mul_comm]; exact hdiv⟩
    have hle : x / n ≤ (high - low) / n := by
      rw [Nat.le_div_iff_mul_le (by omega),Nat.mul_comm]
      omega
    omega

theorem mem_stepList_one {low high x : ℕ} (hl : low ≤ x) (hh : x ≤ high) : x ∈ stepList low high 1 := by
  simp only [stepList,List.mem_map,List.mem_range]
  exact ⟨x - low,by omega,by omega⟩

theorem bounds_of_mem_stepList {low high n x : ℕ} (hlh : low ≤ high) (h : x ∈ stepList low high n) :
    low ≤ x ∧ x ≤ high := by
  simp only [stepList,List.mem_map,List.mem_range] at h
  obtain ⟨k,hk,rfl⟩ := h
  have hle : k * n ≤ high - low := (Nat.mul_le_mul_right n (by omega)).trans (Nat.div_mul_le_self _ _)
  omega

section
variable {part : CrontabPart} {item field : List Char} {v : CrontabValue} {offset x : ℕ} {vs : List CrontabValue}
  {f : List Char → List Char} {b : Bool}

/-- The rewritten text is one of a field, and its values match where the item does or, if
`b` is set, is a step of one. -/
def Rewrites (part : CrontabPart) (b : Bool) (item text : List Char) : Prop :=
  ∃ vs, FieldText part text vs ∧ ∀ t, vs.any (CrontabValue.matchValue (part.valueAt t) part.stepOffset) =
    (itemMatches part.stepOffset (part.valueAt t) item || (b && isUnitStep item))

theorem ItemText.not_step (h : ItemText part item v) (hv : ∀ n, v ≠ .step n) (ds : List Char) :
    item ≠ '*' :: '/' :: ds := by
  intro he
  subst he
  generalize ht : '*' :: '/' :: ds = t at h
  cases h with
  | number hn =>
    subst ht
    exact absurd (hn.isDigit '*' (by simp)) (by decide)
  | range hl =>
    obtain ⟨c,tail,rfl⟩ := List.exists_cons_of_ne_nil hl.ne_nil
    rw [List.cons_append,List.cons.injEq] at ht
    have hc := hl.isDigit c (by simp)
    rw [← ht.1] at hc
    exact absurd hc (by decide)
  | any => simp at ht
  | step => exact hv _ rfl

theorem expandItem_step (ds : List Char) : expandItem part ('*' :: '/' :: ds) = if numeral ds = 0 then '*' :: '/' :: ds
    else [','].intercalate ((stepList part.boundaries.1 part.boundaries.2 (numeral ds)).map (Nat.toDigits 10)) := rfl

theorem expandItem_of_ne (h : ∀ ds, item ≠ '*' :: '/' :: ds) : expandItem part item = item := by
  unfold expandItem
  split
  · next ds => exact absurd rfl (h ds)
  · rfl

theorem isUnitStep_of_ne (h : ∀ ds, item ≠ '*' :: '/' :: ds) : isUnitStep item = false := by
  unfold isUnitStep
  split
  · next ds => exact absurd rfl (h ds)
  · rfl

theorem itemMatches_of_ne (hs : item ≠ ['*']) (h : ∀ ds, item ≠ '*' :: '/' :: ds) :
    itemMatches offset x item = spanDenotes item x := by
  unfold itemMatches
  split
  · exact absurd rfl hs
  · next ds => exact absurd rfl (h ds)
  · rfl

theorem matchValue_itemMatches (h : ItemText part item v) : v.matchValue x offset = itemMatches offset x item := by
  have hns := h.not_step
  cases h with
  | number hn =>
    rw [itemMatches_of_ne (number_ne_star hn) (hns nofun),spanDenotes_number hn]
    rfl
  | range hl _ hh =>
    rw [itemMatches_of_ne (range_ne_star _ _) (hns nofun),spanDenotes_range hl hh]
    rfl
  | any => rfl
  | @step ds n hn =>
    have hnum : numeral ds = n := hn.value.symm
    rw [itemMatches,hnum]
    cases n with
    | zero => rfl
    | succ n => rfl

theorem rewrites_self (h : ItemText part item v) (hu : b = true → isUnitStep item = false) :
    Rewrites part b item item := by
  refine ⟨[v],⟨[item],by simp,by simp,.cons h .nil⟩,fun t => ?_⟩
  have hb : (b && isUnitStep item) = false := by
    cases b with
    | false => rfl
    | true => exact hu rfl
  rw [List.any_cons,List.any_nil,matchValue_itemMatches h,hb]

theorem inBounds_valueAt (hp : part ≠ .daysOfWeek) (t : NaiveDateTime) : part.InBounds (part.valueAt t) := by
  cases part with
  | minute => exact inBounds_minute t
  | hours => exact inBounds_hour t
  | days => exact inBounds_day t
  | months => exact inBounds_month t
  | daysOfWeek => exact absurd rfl hp

theorem boundaries_eq_stepOffset (hp : part ≠ .daysOfWeek) : part.boundaries.1 = part.stepOffset := by
  cases part with
  | minute | hours | days | months => rfl
  | daysOfWeek => exact absurd rfl hp

theorem fieldText_stepList {n : ℕ} : FieldText part
    ([','].intercalate ((stepList part.boundaries.1 part.boundaries.2 n).map (Nat.toDigits 10)))
    ((stepList part.boundaries.1 part.boundaries.2 n).map .number) := by
  refine ⟨_,rfl,by simp [stepList],?_⟩
  rw [List.forall₂_map_left_iff,List.forall₂_map_right_iff,List.forall₂_same]
  intro x hx
  have hb := bounds_of_mem_stepList (by cases part <;> decide) hx
  exact .number (isNumber_toDigits (hb.2.trans_lt (by cases part <;> decide))) hb

theorem any_number {l : List ℕ} :
    (l.map CrontabValue.number).any (CrontabValue.matchValue x offset) = true ↔ x ∈ l := by
  rw [List.any_map,List.any_eq_true]
  simp only [CrontabValue.matchValue,Function.comp_apply,beq_iff_eq,exists_eq_right']

theorem rewrites_expandItem (hp : part ≠ .daysOfWeek) (h : ItemText part item v) :
    Rewrites part true item (expandItem part item) := by
  by_cases hv : ∃ n, v = .step n
  · obtain ⟨n,rfl⟩ := hv
    cases h with
    | @step ds n hn hb =>
      have hnum : numeral ds = n := hn.value.symm
      rw [expandItem_step,hnum]
      by_cases h0 : n = 0
      · rw [if_pos h0]
        exact rewrites_self (.step hn hb) fun _ => by simp [isUnitStep,hnum,h0]
      · rw [if_neg h0]
        refine ⟨_,fieldText_stepList,fun t => ?_⟩
        have hx := inBounds_valueAt hp t
        rw [Bool.eq_iff_iff,any_number,itemMatches,isUnitStep,hnum]
        by_cases h1 : n = 1
        · subst h1
          simpa using mem_stepList_one hx.1 hx.2
        · have hlt : part.boundaries.1 < n := by
            rw [boundaries_eq_stepOffset hp]
            have : part.stepOffset ≤ 1 := by cases part <;> decide
            omega
          rw [mem_stepList hlt hx.1 hx.2,boundaries_eq_stepOffset hp]
          simp [h0,h1]
  · have hns := h.not_step fun n hn => hv ⟨n,hn⟩
    rw [expandItem_of_ne hns]
    exact rewrites_self h fun _ => isUnitStep_of_ne hns

theorem rewrites_starItem (h : ItemText part item v) : Rewrites part true item (starItem item) := by
  unfold starItem
  by_cases hs : isUnitStep item = true
  · rw [if_pos hs]
    refine ⟨[.any],fieldText_star,fun t => ?_⟩
    rw [hs,Bool.and_self,Bool.or_true]
    rfl
  · rw [if_neg hs]
    exact rewrites_self h fun _ => Bool.eq_false_iff.mpr hs

theorem FieldText.append {f g : List Char} {ws : List CrontabValue} (hf : FieldText part f vs)
    (hg : FieldText part g ws) : FieldText part (f ++ ',' :: g) (vs ++ ws) := by
  obtain ⟨ts,rfl,hne,hts⟩ := hf
  obtain ⟨us,rfl,hne',hus⟩ := hg
  refine ⟨ts ++ us,?_,by simp [hne],List.rel_append hts hus⟩
  obtain ⟨t,ts,rfl⟩ := List.exists_cons_of_ne_nil hne
  obtain ⟨u,us,rfl⟩ := List.exists_cons_of_ne_nil hne'
  simp [intercalate_cons_eq]

theorem exists_fieldText_map {items : List (List Char)}
    (h : List.Forall₂ (ItemText part) items vs) (hne : items ≠ [])
    (hf : ∀ item ∈ items, ∀ v, ItemText part item v → Rewrites part b item (f item)) :
    ∃ ws, FieldText part ([','].intercalate (items.map f)) ws ∧
      ∀ t, ws.any (CrontabValue.matchValue (part.valueAt t) part.stepOffset) =
        (items.any (itemMatches part.stepOffset (part.valueAt t)) || (b && items.any isUnitStep)) := by
  induction h with
  | nil => exact absurd rfl hne
  | @cons item v items vs hi hrest ih =>
    obtain ⟨ws,hws,hmatch⟩ := hf item (by simp) v hi
    cases items with
    | nil =>
      cases hrest
      exact ⟨ws,by simpa using hws,fun t => by simp [hmatch t]⟩
    | cons item' items =>
      obtain ⟨ws',hws',hmatch'⟩ := ih (by simp) fun u hu => hf u (List.mem_cons_of_mem _ hu)
      refine ⟨ws ++ ws',?_,fun t => ?_⟩
      · rw [List.map_cons,List.map_cons,List.intercalate_cons_cons]
        simpa using hws.append hws'
      · rw [List.any_append,hmatch t,hmatch' t,List.any_cons (l := item' :: items),List.any_cons (l := item' :: items)]
        cases b with
        | false => simp only [Bool.false_and,Bool.or_false]
        | true =>
          simp only [Bool.true_and]
          ac_rfl

theorem exists_fieldText_mapItems (h : FieldText part field vs)
    (hf : ∀ item ∈ field.splitOn ',', ∀ v, ItemText part item v → Rewrites part b item (f item)) :
    ∃ ws, FieldText part (mapItems f field) ws ∧
      ∀ t, ws.any (CrontabValue.matchValue (part.valueAt t) part.stepOffset) =
        ((field.splitOn ',').any (itemMatches part.stepOffset (part.valueAt t)) ||
          (b && (field.splitOn ',').any isUnitStep)) :=
  exists_fieldText_map h.splitOn (List.splitOn_ne_nil _ _) hf

theorem mapItems_eq_self (h : ∀ item ∈ field.splitOn ',', f item = item) : mapItems f field = field := by
  rw [mapItems,List.map_congr_left h,List.map_id',List.intercalate_splitOn]

end

theorem forall_part {P : CrontabPart → Prop} :
    (∀ part, P part) ↔ P .minute ∧ P .hours ∧ P .days ∧ P .months ∧ P .daysOfWeek := by
  constructor
  · exact fun h => ⟨h _,h _,h _,h _,h _⟩
  · rintro ⟨h₁,h₂,h₃,h₄,h₅⟩ part
    cases part <;> assumption

section
variable {text rest : List Char} {timer : CrontabTimer}

theorem any_itemMatches {part : CrontabPart} {field : List Char} {vs : List CrontabValue} (h : FieldText part field vs)
    (t : NaiveDateTime) : vs.any (CrontabValue.matchValue (part.valueAt t) part.stepOffset) =
      (field.splitOn ',').any (itemMatches part.stepOffset (part.valueAt t)) :=
  any_eq_of_forall₂ h.splitOn fun _ _ _ hi => matchValue_itemMatches hi

theorem shouldRunAt_iff_matches (h : nomCrontabTimer (text ++ rest) = .ok (rest,timer)) (t : NaiveDateTime) :
    timer.shouldRunAt t = true ↔ ∀ part, fieldMatches text t part = true := by
  obtain ⟨m,h,d,mo,w,-,hsplit,hf⟩ := exists_timerFields h
  rw [forall_part]
  simp only [fieldMatches,CrontabPart.items,fieldOf,hsplit,CrontabPart.index,List.getD_cons_zero,List.getD_cons_succ]
  rw [← any_itemMatches hf.minutes,← any_itemMatches hf.hours,← any_itemMatches hf.days,← any_itemMatches hf.months,
    ← any_itemMatches hf.dows]
  unfold CrontabTimer.shouldRunAt
  simp only [Bool.and_eq_true,and_assoc]
  rfl

/-- The last field is read up to `rest`, so it has to stay as it is unless what follows cannot belong to it. -/
theorem mapFields_ok {f : CrontabPart → List Char → List Char} {b : CrontabPart → Bool}
    (h : nomCrontabTimer (text ++ rest) = .ok (rest,timer))
    (hf : ∀ part, ∀ item ∈ part.items text, ∀ v, ItemText part item v → Rewrites part (b part) item (f part item))
    (hr : (∀ item ∈ CrontabPart.daysOfWeek.items text, f .daysOfWeek item = item) ∨
      ∀ c ∈ rest.head?, c = ' ' ∨ c = '\t') :
    ∃ timer', nomCrontabTimer (mapFields f text ++ rest) = .ok (rest,timer') ∧ ∀ t, timer'.shouldRunAt t = true ↔
      ∀ part, fieldMatches text t part = true ∨ (b part = true ∧ hasUnitStep text part = true) := by
  obtain ⟨m,h,d,mo,w,-,hsplit,hfields⟩ := exists_timerFields h
  rw [forall_part] at hf
  simp only [CrontabPart.items,fieldOf,hsplit,CrontabPart.index,List.getD_cons_zero,List.getD_cons_succ] at hf hr
  obtain ⟨hm,hh,hd,hmo,hw⟩ := hf
  obtain ⟨minutes,hminutes,hmatch₁⟩ := exists_fieldText_mapItems hfields.minutes hm
  obtain ⟨hours,hhours,hmatch₂⟩ := exists_fieldText_mapItems hfields.hours hh
  obtain ⟨days,hdays,hmatch₃⟩ := exists_fieldText_mapItems hfields.days hd
  obtain ⟨months,hmonths,hmatch₄⟩ := exists_fieldText_mapItems hfields.months hmo
  obtain ⟨dows,hdows,hmatch₅⟩ := exists_fieldText_mapItems hfields.dows hw
  obtain ⟨dows,hdows,hmatch₅,hlast⟩ : ∃ dows, FieldText .daysOfWeek (mapItems (f .daysOfWeek) w) dows ∧
      (∀ t, dows.any (CrontabValue.matchValue (CrontabPart.daysOfWeek.valueAt t) CrontabPart.daysOfWeek.stepOffset) =
        ((w.splitOn ',').any (itemMatches CrontabPart.daysOfWeek.stepOffset (CrontabPart.daysOfWeek.valueAt t)) ||
          (b .daysOfWeek && (w.splitOn ',').any isUnitStep))) ∧
      crontabValues .daysOfWeek (mapItems (f .daysOfWeek) w ++ rest) = .ok (rest,dows) := by
    rcases hr with hself | hblank
    · -- the field is the one that was read
      rw [mapItems_eq_self hself] at hdows ⊢
      exact ⟨timer.dows,hfields.dows,fun t => (any_itemMatches hfields.dows t).trans
        ((any_itemMatches hdows t).symm.trans (hmatch₅ t)),hfields.last⟩
    · refine ⟨dows,hdows,hmatch₅,crontabValues_complete hdows (fun c hc => .inr (hblank c hc)) fun c hc => ?_⟩
      rcases hblank c hc with rfl | rfl <;> decide
  refine ⟨⟨minutes,hours,days,months,dows⟩,?_,fun t => ?_⟩
  · unfold mapFields
    rw [hsplit]
    simp only [List.zipWith_cons_cons,List.zipWith_nil_right]
    exact nomCrontabTimer_complete ⟨hminutes,hhours,hdays,hmonths,hdows,hlast⟩
  · have hor : ∀ part, (fieldMatches text t part = true ∨ (b part = true ∧ hasUnitStep text part = true)) ↔
        (fieldMatches text t part || (b part && hasUnitStep text part)) = true := by simp
    rw [forall_congr' hor,forall_part]
    simp only [fieldMatches,hasUnitStep,CrontabPart.items,fieldOf,hsplit,CrontabPart.index,List.getD_cons_zero,
      List.getD_cons_succ]
    rw [← hmatch₁ t,← hmatch₂ t,← hmatch₃ t,← hmatch₄ t,← hmatch₅ t]
    unfold CrontabTimer.shouldRunAt
    simp only [Bool.and_eq_true,and_assoc]
    rfl

/-- Where the offset is 0, a step of one matches everything. -/
theorem fieldMatches_of_unitStep {part : CrontabPart} (hp : part.stepOffset = 0) (h : hasUnitStep text part = true)
    (t : NaiveDateTime) : fieldMatches text t part = true := by
  obtain ⟨item,hi,hu⟩ := List.any_eq_true.mp h
  refine List.any_eq_true.mpr ⟨item,hi,?_⟩
  unfold isUnitStep at hu
  split at hu
  · simp [itemMatches,beq_iff_eq.mp hu,hp,Nat.mod_one]
  · cases hu

/-- The rewritten timer differs at the times at which a step of one is missed. -/
theorem shouldRunAt_eq_iff (h : nomCrontabTimer (text ++ rest) = .ok (rest,timer)) {timer' : CrontabTimer}
    {b : CrontabPart → Bool} {parts : List CrontabPart} {t : NaiveDateTime}
    (hb : ∀ part, b part = true → part.stepOffset = 0 ∨ part ∈ parts) (hparts : ∀ part ∈ parts, b part = true)
    (h' : timer'.shouldRunAt t = true ↔
      ∀ part, fieldMatches text t part = true ∨ (b part = true ∧ hasUnitStep text part = true)) :
    timer'.shouldRunAt t = timer.shouldRunAt t ↔ ¬UnitStepMissed parts text t := by
  have hcover : (∀ part, fieldMatches text t part = true ∨ (b part = true ∧ hasUnitStep text part = true)) ↔
      ∀ part, fieldMatches text t part = true ∨ (part ∈ parts ∧ hasUnitStep text part = true) := by
    refine forall_congr' fun part => ?_
    constructor
    · rintro (hm | ⟨hp,hu⟩)
      · exact .inl hm
      · exact (hb part hp).imp (fun h0 => fieldMatches_of_unitStep h0 hu t) fun hp => ⟨hp,hu⟩
    · exact Or.imp_right fun ⟨hp,hu⟩ => ⟨hparts part hp,hu⟩
  have hnot : (∃ part, fieldMatches text t part = false) ↔ ¬∀ part, fieldMatches text t part = true := by simp
  rw [Bool.eq_iff_iff,h',shouldRunAt_iff_matches h t,hcover,UnitStepMissed,hnot]
  constructor
  · rintro hiff ⟨hall,hmiss⟩
    exact hmiss (hiff.mp hall)
  · intro hn
    exact ⟨fun hall => by_contra fun hmiss => hn ⟨hall,hmiss⟩,fun hall part => .inl (hall part)⟩

end

/-- Written out, an accepted timer runs at the same times, except where every field matches or has a
step of one, and one of these fields has no item that matches. -/
theorem steps_expand (text rest : List Char) (timer : CrontabTimer)
    (h : nomCrontabTimer (text ++ rest) = .ok (rest,timer)) :
    (∃ timer', nomCrontabTimer (expandSteps text ++ rest) = .ok (rest,timer') ∧
      ∀ t, timer'.shouldRunAt t = timer.shouldRunAt t ↔ ¬UnitStepMissed [.days,.months] text t) ∧
    ((hasUnitStep text .daysOfWeek = true → ∀ c ∈ rest.head?, c = ' ' ∨ c = '\t') →
      ∃ timer', nomCrontabTimer (unitStepsToStars text ++ rest) = .ok (rest,timer') ∧
        ∀ t, timer'.shouldRunAt t = timer.shouldRunAt t ↔ ¬UnitStepMissed [.days,.months,.daysOfWeek] text t) := by
  constructor
  · have hrewrites : ∀ part, ∀ item ∈ part.items text, ∀ v, ItemText part item v → Rewrites part
        (part != .daysOfWeek) item ((if part = .daysOfWeek then id else expandItem part) item) := by
      intro part item _ v hv
      by_cases hw : part = .daysOfWeek
      · simpa [hw] using rewrites_self (b := false) hv nofun
      · rw [if_neg hw,bne_iff_ne.mpr hw]
        exact rewrites_expandItem hw hv
    obtain ⟨timer',hp,hrun⟩ := mapFields_ok h hrewrites (.inl fun _ _ => rfl)
    refine ⟨timer',hp,fun t => shouldRunAt_eq_iff h ?_ ?_ (hrun t)⟩
    · exact fun part => by cases part <;> decide
    · exact fun part => by cases part <;> decide
  · intro hblank
    have hr : (∀ item ∈ CrontabPart.daysOfWeek.items text, starItem item = item) ∨
        ∀ c ∈ rest.head?, c = ' ' ∨ c = '\t' := by
      by_cases hu : hasUnitStep text .daysOfWeek = true
      · exact .inr (hblank hu)
      · refine .inl fun item hi => if_neg fun hs => hu (List.any_eq_true.mpr ⟨item,hi,hs⟩)
    obtain ⟨timer',hp,hrun⟩ := mapFields_ok (f := fun _ => starItem) h
      (fun part item _ v hv => rewrites_starItem hv) hr
    refine ⟨timer',hp,fun t => shouldRunAt_eq_iff h ?_ ?_ (hrun t)⟩
    · exact fun part => by cases part <;> decide
    · exact fun _ _ => rfl

def twoSteps : List Char :=
  ['*','/','2','0',' ','0',' ','1','-','9',',','*','/','1','0',' ','*',' ','1']

theorem two_steps_expand : ∃ timer timer', nomCrontabTimer twoSteps = .ok ([],timer) ∧
    expandSteps twoSteps = ['0',',','2','0',',','4','0',' ','0',' ','1','-','9',',','1',',','1','1',',','2','1',',',
      '3','1',' ','*',' ','1'] ∧
    nomCrontabTimer (expandSteps twoSteps) = .ok ([],timer') ∧ ∀ t, timer'.shouldRunAt t = timer.shouldRunAt t := by
  have hno : ∀ part, hasUnitStep twoSteps part = false := fun part => by cases part <;> decide
  have hp : nomCrontabTimer twoSteps = .ok ([],⟨[.step 20],[.number 0],[.range 1 9,.step 10],[.any],[.number 1]⟩) := rfl
  obtain ⟨⟨timer',hp',hrun⟩,-⟩ := steps_expand twoSteps [] _ hp
  rw [List.append_nil] at hp'
  refine ⟨_,timer',hp,by decide,hp',fun t => (hrun t).mpr ?_⟩
  rintro ⟨hall,part,hmiss⟩
  rcases hall part with hm | ⟨-,hu⟩
  · simp [hmiss] at hm
  · simp [hno part] at hu

def everyDay : List Char := ['0',' ','0',' ','*','/','1',' ','*',' ','*']

def everyMonth : List Char := ['0',' ','0',' ','*',' ','*','/','1',' ','*']

def everyWeekday : List Char := ['0',' ','0',' ','*',' ','*',' ','*','/','1']

/-- A step of one in one of the last three fields does not run at midnight of 1 January 1970. -/
theorem unit_step_not_run :
    (∀ text ∈ [everyDay,everyMonth], ∃ timer expanded, nomCrontabTimer text = .ok ([],timer) ∧
      nomCrontabTimer (expandSteps text) = .ok ([],expanded) ∧
      timer.shouldRunAt 0 = false ∧ expanded.shouldRunAt 0 = true) ∧
    ∀ text ∈ [everyDay,everyMonth,everyWeekday], ∃ timer star, nomCrontabTimer text = .ok ([],timer) ∧
      unitStepsToStars text = ['0',' ','0',' ','*',' ','*',' ','*'] ∧
      nomCrontabTimer (unitStepsToStars text) = .ok ([],star) ∧
      timer.shouldRunAt 0 = false ∧ star.shouldRunAt 0 = true := by
  have hday : nomCrontabTimer everyDay = .ok ([],⟨[.number 0],[.number 0],[.step 1],[.any],[.any]⟩) := rfl
  have hmonth : nomCrontabTimer everyMonth = .ok ([],⟨[.number 0],[.number 0],[.any],[.step 1],[.any]⟩) := rfl
  have hweekday : nomCrontabTimer everyWeekday = .ok ([],⟨[.number 0],[.number 0],[.any],[.any],[.step 1]⟩) := rfl
  simp only [List.forall_mem_cons,List.not_mem_nil,false_imp_iff,implies_true,and_true]
  refine ⟨⟨?_,?_⟩,?_,?_,?_⟩
  · exact ⟨_,⟨[.number 0],[.number 0],(stepList 1 31 1).map .number,[.any],[.any]⟩,hday,rfl,by decide,by decide⟩
  · exact ⟨_,⟨[.number 0],[.number 0],[.any],(stepList 1 12 1).map .number,[.any]⟩,hmonth,rfl,by decide,by decide⟩
  · exact ⟨_,⟨[.number 0],[.number 0],[.any],[.any],[.any]⟩,hday,by decide,rfl,by decide,by decide⟩
  · exact ⟨_,⟨[.number 0],[.number 0],[.any],[.any],[.any]⟩,hmonth,by decide,rfl,by decide,by decide⟩
  · exact ⟨_,⟨[.number 0],[.number 0],[.any],[.any],[.any]⟩,hweekday,by decide,rfl,by decide,by decide⟩

end GraphileWorker.Cron

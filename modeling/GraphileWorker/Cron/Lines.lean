import GraphileWorker.Cron.TimerText
import GraphileWorker.Foundation.Lines
import GraphileWorker.Foundation.Locality

/-! # A crontab is read line by line

The parsers of a line never look past its ending, and the part before the ending always
succeeds, if only as blanks. So every round of the loop reads one line.
-/
namespace GraphileWorker.Cron
open Database Foundation Foundation.Parsing

def isBreak (c : Char) : Bool := c == '\n' || c == '\r'

theorem forall_isBreak {f : Char → Bool} (hn : f '\n' = false) (hr : f '\r' = false) (c : Char)
    (h : isBreak c = true) : f c = false := by
  obtain rfl | rfl : c = '\n' ∨ c = '\r' := by simpa [isBreak] using h
  · exact hn
  · exact hr

theorem stopped_of_lineEnding {l sep rest : List Char} (h : LineEnding l sep) : Stopped isBreak (sep ++ rest) := by
  cases h with
  | lf h => exact ⟨'\n',rest,rfl,rfl⟩
  | crlf => exact ⟨'\r','\n' :: rest,rfl,rfl⟩

theorem local_crontabNumber (part : CrontabPart) : Local isBreak (crontabNumber part) :=
  (local_u32 (forall_isBreak rfl rfl)).verify _

theorem local_crontabRange (part : CrontabPart) : Local isBreak (crontabRange part) :=
  ((local_crontabNumber part).separatedPair (local_char rfl) (local_crontabNumber part)).verify _

theorem local_crontabWildcard (part : CrontabPart) : Local isBreak (crontabWildcard part) :=
  (local_char rfl).preceded ((local_char rfl).preceded (local_crontabNumber part)).opt

theorem local_crontabValues (part : CrontabPart) : Local isBreak (crontabValues part) := by
  have value : Local isBreak (crontabValue part) :=
    ((local_crontabRange part).map _).alt (((local_crontabWildcard part).map _).alt ((local_crontabNumber part).map _))
  exact value.separatedList1 (local_char rfl)

theorem local_nomCrontabTimer : Local isBreak nomCrontabTimer := by
  have blank : Local isBreak (char ' ') := local_char rfl
  have field (part : CrontabPart) := (local_crontabValues part).terminated blank
  exact fun i tail ht => (field .minute i tail ht).bind fun i _ => (field .hours i tail ht).bind fun i _ =>
    (field .days i tail ht).bind fun i _ => (field .months i tail ht).bind fun i _ =>
      (local_crontabValues .daysOfWeek i tail ht).bind fun i _ => .ok (List.suffix_refl i) _

theorem local_nomTaskIdentifier : Local isBreak nomTaskIdentifier :=
  fun i tail ht => (local_satisfy (forall_isBreak rfl rfl) i tail ht).bind fun i _ =>
    ((local_satisfy (forall_isBreak rfl rfl)).many0 i tail ht).bind fun i _ => .ok (List.suffix_refl i) _

theorem plain_crontabFill : Plain crontabFill := by
  have unit (c : Char) := (plain_u32.terminated (plain_char c)).opt
  exact fun i => Harmless.bind (unit 'w' i) fun x => Harmless.bind (unit 'd' x.1) fun x =>
    Harmless.bind (unit 'h' x.1) fun x => Harmless.bind (unit 'm' x.1) fun x => Harmless.bind (unit 's' x.1) fun x =>
      Harmless.bind (plain_eof x.1) fun _ => harmless_ok _

theorem harmless_fill (fill : Option (List Char)) :
    Harmless (fill.mapM fun text => (crontabFill text).map Prod.snd) := by
  cases fill with
  | none => exact harmless_ok none
  | some text =>
    rw [Option.mapM_some]
    cases h : crontabFill text with
    | ok x => exact harmless_ok (some x.2)
    | error e => exact harmless_error (plain_crontabFill text e h)

variable (readers : Readers)

theorem local_crontabQuery : Local isBreak (crontabQuery readers) := by
  refine fun i tail ht => ((local_char rfl).preceded (local_takeSome (forall_isBreak rfl rfl) _) i tail ht).bind
    fun i qs => ?_
  dsimp only
  split
  · exact .ok (List.suffix_refl i) _
  · exact .error rfl rfl

theorem local_nomCrontabOpts : Local isBreak (nomCrontabOpts readers) := by
  refine fun i tail ht => (local_crontabQuery readers i tail ht).bind fun i query => ?_
  dsimp only
  -- the phrase of `fill` is a text of its own, so its error is the same one
  cases h : query.fill.mapM fun text => (crontabFill text).map Prod.snd with
  | error e => exact .error (harmless_fill query.fill e h) (harmless_fill query.fill e h)
  | ok fill => exact .ok (List.suffix_refl i) _

theorem local_nomCrontabPayload : Local isBreak (nomCrontabPayload readers) := by
  refine fun i tail ht => (local_takeSome (forall_isBreak rfl rfl) _ i tail ht).bind fun i json => ?_
  dsimp only
  split
  · exact .ok (List.suffix_refl i) _
  · exact .error rfl rfl

theorem local_crontabLine : Local isBreak (crontabLine readers) := by
  have blanks : Local isBreak space1 := local_takeSome (forall_isBreak rfl rfl) _
  exact fun i tail ht =>
    ((local_takeWhile (forall_isBreak rfl rfl)).preceded local_nomCrontabTimer i tail ht).bind fun i _ =>
      (blanks.preceded local_nomTaskIdentifier i tail ht).bind fun i _ =>
        ((blanks.preceded (local_nomCrontabOpts readers)).opt i tail ht).bind fun i _ =>
          ((blanks.preceded (local_nomCrontabPayload readers)).opt i tail ht).bind fun i _ =>
            .ok (List.suffix_refl i) _

theorem local_crontabComment : Local isBreak crontabComment := by
  unfold crontabComment value space0
  exact (((local_takeWhile (forall_isBreak rfl rfl)).preceded (local_char rfl)).preceded
    (local_takeWhile (forall_isBreak rfl rfl))).map _

/-- A line up to its ending: a comment, an entry or blanks. -/
def crontabBody : Parser (Option Crontab) := alt crontabComment (alt (crontabLine readers) (value none space0))

def crontabItem : Parser (Option Crontab) :=
  preceded (not eof) (cut (terminated (crontabBody readers) (preceded space0 (alt lineEnding eof))))

theorem nomCrontab_eq :
    nomCrontab readers = map (many0 (crontabItem readers)) fun crontabs => crontabs.filterMap id := rfl

theorem local_blank : Local isBreak (value (none : Option Crontab) space0) := by
  unfold value space0
  exact (local_takeWhile (forall_isBreak rfl rfl)).map _

theorem local_crontabBody : Local isBreak (crontabBody readers) :=
  local_crontabComment.alt ((local_crontabLine readers).alt local_blank)

theorem stopped_lf : Stopped isBreak ['\n'] := ⟨'\n',[],rfl,rfl⟩

theorem crontabBody_succeeds (i : List Char) : ∃ rest entry, crontabBody readers i = .ok (rest,entry) := by
  cases h : crontabBody readers i with
  | ok x => exact ⟨x.1,x.2,rfl⟩
  | error e =>
    have hline := alt_error (local_crontabComment.plain stopped_lf) h
    have hblank := alt_error ((local_crontabLine readers).plain stopped_lf) hline
    cases hblank

inductive Ends : List Char → List Char → Prop
  | text : Ends [] []
  | lf {rest : List Char} : Ends ('\n' :: rest) rest
  | crlf {rest : List Char} : Ends ('\r' :: '\n' :: rest) rest

theorem lineEnd_ok {i rest : List Char} (h : Ends i rest) : ∃ ending, alt lineEnding eof i = .ok (rest,ending) := by
  cases h with
  | text => exact ⟨_,rfl⟩
  | lf => exact ⟨_,rfl⟩
  | crlf => exact ⟨_,rfl⟩

theorem lineEnd_error {i : List Char} (h : ∀ rest, ¬Ends i rest) : alt lineEnding eof i = .error ⟨i,.eof,false⟩ := by
  have hl : lineEnding i = .error ⟨i,.crLf,false⟩ := by
    unfold lineEnding
    split
    · exact absurd .lf (h _)
    · exact absurd .crlf (h _)
    · rfl
  cases i with
  | nil => exact absurd .text (h _)
  | cons c i => simp [alt,hl,eof]

section
variable {readers} {i r rest : List Char} {entry : Option Crontab}

theorem not_eof (hi : i ≠ []) : not eof i = .ok (i,()) := by
  cases i with
  | nil => exact absurd rfl hi
  | cons c i => rfl

theorem crontabItem_ok (hi : i ≠ []) (h : crontabBody readers i = .ok (r,entry))
    (he : Ends (r.dropWhile isSpace) rest) : crontabItem readers i = .ok (rest,entry) := by
  obtain ⟨ending,hend⟩ := lineEnd_ok he
  simp only [crontabItem,preceded,not_eof hi,cut,terminated,h,space0,takeWhile,bind,Except.bind,hend]
  rfl

theorem crontabItem_error (hi : i ≠ []) (h : crontabBody readers i = .ok (r,entry))
    (he : ∀ rest, ¬Ends (r.dropWhile isSpace) rest) :
    crontabItem readers i = .error ⟨r.dropWhile isSpace,.eof,true⟩ := by
  have hend := lineEnd_error he
  simp only [crontabItem,preceded,not_eof hi,cut,terminated,h,space0,takeWhile,bind,Except.bind,hend]
  rfl

theorem Ends.suffix {j : List Char} (h : Ends j rest) : rest <:+ j := by
  cases h with
  | text => exact List.suffix_refl []
  | lf => exact List.suffix_cons _ _
  | crlf => exact (List.suffix_cons _ _).trans (List.suffix_cons _ _)

end

section
variable {readers} {l sep rest d text : List Char} {e : CrontabParseError}

theorem consumes_crontabItem : Consumes (crontabItem readers) := by
  intro i rest entry h
  by_cases hi : i = []
  · subst hi
    cases h
  · obtain ⟨r,entry',hb⟩ := crontabBody_succeeds readers i
    have hr := ((local_crontabBody readers).ok hb stopped_lf).1
    by_cases he : ∃ rest', Ends (r.dropWhile isSpace) rest'
    · obtain ⟨rest',he⟩ := he
      rw [crontabItem_ok hi hb he] at h
      cases h
      exact he.suffix.trans ((List.dropWhile_suffix _).trans hr)
    · rw [crontabItem_error hi hb (fun rest' h => he ⟨rest',h⟩)] at h
      cases h

theorem nomCrontab_item {i rest : List Char} {entry : Option Crontab} (h : crontabItem readers i = .ok (rest,entry))
    (hlt : rest.length < i.length) :
    nomCrontab readers i = (nomCrontab readers rest).map fun x => (x.1,entry.toList ++ x.2) := by
  have hm : many0 (crontabItem readers) i = (many0 (crontabItem readers) rest).map fun x => (x.1,entry :: x.2) := by
    rw [many0_eq consumes_crontabItem i,h]
    simp only [if_neg (Nat.ne_of_lt hlt)]
  rw [nomCrontab_eq]
  unfold map
  rw [hm]
  cases many0 (crontabItem readers) rest with
  | error e => rfl
  | ok x => cases entry <;> rfl

theorem nomCrontab_failure {i : List Char} {e : Err} (h : crontabItem readers i = .error e) (he : e.failure = true) :
    nomCrontab readers i = .error e := by
  have hm : many0 (crontabItem readers) i = .error e := by
    rw [many0_eq consumes_crontabItem i,h]
    simp [he]
  rw [nomCrontab_eq]
  unfold map
  rw [hm]
  rfl

theorem not_ends {c : Char} (hl : '\n' ∉ l) (hd : c :: d <:+ l) (hs : LineEnding l sep)
    (rest' : List Char) : ¬Ends (c :: d ++ (sep ++ rest)) rest' := by
  have hmem : ∀ e ∈ c :: d, e ≠ '\n' := by
    rintro e he rfl
    exact hl (hd.subset he)
  generalize hj : c :: d ++ (sep ++ rest) = j
  intro h
  cases h with
  | text => simp at hj
  | lf => exact hmem c (by simp) (List.cons.inj hj).1
  | crlf =>
    obtain ⟨rfl,ht⟩ := List.cons.inj hj
    cases d with
    | cons e d => exact hmem e (by simp) (List.cons.inj ht).1
    | nil =>
      cases hs with
      | crlf => simp at ht
      | lf h =>
        obtain ⟨b,rfl⟩ := hd
        simp at h

theorem not_ends_alone {c : Char} (hl : '\n' ∉ l) (hd : c :: d <:+ l) (rest' : List Char) :
    ¬Ends (c :: d) rest' := by
  intro h
  generalize hj : c :: d = j at h
  cases h with
  | text => cases hj
  | lf => exact hl (hd.subset (by simp [hj]))
  | crlf => exact hl (hd.subset (by simp [hj]))

/-- A line is accepted or rejected by itself, and the same way in front of more lines. -/
theorem line_cases (readers : Readers) (hl : '\n' ∉ l) :
    (∃ r entry, (crontabBody readers l = .ok (r,entry) ∧ r.dropWhile isSpace = []) ∧
      nomCrontab readers l = .ok ([],entry.toList) ∧ ∀ sep rest, LineEnding l sep →
        crontabItem readers (l ++ (sep ++ rest)) = .ok (rest,entry)) ∨
    ∃ d, d <:+ l ∧ nomCrontab readers l = .error ⟨d,.eof,true⟩ ∧ ∀ sep rest, LineEnding l sep →
      nomCrontab readers (l ++ (sep ++ rest)) = .error ⟨d ++ (sep ++ rest),.eof,true⟩ := by
  obtain ⟨r,entry,hb⟩ := crontabBody_succeeds readers l
  have hr : r.dropWhile isSpace <:+ l :=
    (List.dropWhile_suffix _).trans ((local_crontabBody readers).ok hb stopped_lf).1
  have hin : ∀ {sep rest}, LineEnding l sep → l ++ (sep ++ rest) ≠ [] ∧
      crontabBody readers (l ++ (sep ++ rest)) = .ok (r ++ (sep ++ rest),entry) ∧
      (r ++ (sep ++ rest)).dropWhile isSpace = r.dropWhile isSpace ++ (sep ++ rest) := by
    intro sep rest hs
    have hstop : Stopped isBreak (sep ++ rest) := stopped_of_lineEnding hs
    refine ⟨?_,((local_crontabBody readers).ok hb hstop).2,dropWhile_stopped (forall_isBreak rfl rfl) hstop r⟩
    cases hs <;> simp
  cases hd : r.dropWhile isSpace with
  | nil =>
    refine .inl ⟨r,entry,⟨hb,hd⟩,?_,fun sep rest hs => ?_⟩
    · by_cases hne : l = []
      · -- an empty text has no lines to read, and the body of an empty line is blank
        subst hne
        have hnone : crontabBody readers [] = .ok ([],none) := rfl
        rw [hnone] at hb
        cases hb
        rfl
      · have hend : Ends (r.dropWhile isSpace) [] := hd ▸ .text
        rw [nomCrontab_item (crontabItem_ok hne hb hend) (List.length_pos_of_ne_nil hne),
          show nomCrontab readers [] = .ok ([],[]) from rfl]
        simp [Except.map]
    · obtain ⟨hne,hb',hdrop⟩ := hin hs
      refine crontabItem_ok hne hb' ?_
      rw [hdrop,hd]
      cases hs with
      | lf => exact .lf
      | crlf => exact .crlf
  | cons c d =>
    rw [hd] at hr
    refine .inr ⟨c :: d,hr,?_,fun sep rest hs => ?_⟩
    · have hne : l ≠ [] := by
        rintro rfl
        simp at hr
      rw [← hd]
      exact nomCrontab_failure (crontabItem_error hne hb (hd ▸ not_ends_alone hl hr)) rfl
    · obtain ⟨hne,hb',hdrop⟩ := hin hs
      have hno : ∀ rest', ¬Ends ((r ++ (sep ++ rest)).dropWhile isSpace) rest' := by
        rw [hdrop,hd]
        exact not_ends hl hr hs
      rw [nomCrontab_failure (crontabItem_error hne hb' hno) rfl,hdrop,hd]

def errorAt (before input : List Char) (errorKind : ErrorKind) : CrontabParseError where
  line := before.count '\n' + 1
  column := (before.reverse.takeWhile fun c => c != '\n').length + 1
  input := input
  errorKind := errorKind

theorem parseCrontab_of_ok {x : List Char × List Crontab} (h : nomCrontab readers text = .ok x) :
    parseCrontab readers text = .ok x.2 := by
  unfold parseCrontab
  rw [h]

theorem parseCrontab_of_error {before input : List Char} {code : ErrorKind} {failure : Bool}
    (h : nomCrontab readers (before ++ input) = .error ⟨input,code,failure⟩) :
    parseCrontab readers (before ++ input) = .error (errorAt before input code) := by
  unfold parseCrontab
  rw [h]
  simp [errorAt]

theorem nomCrontab_error (readers : Readers) (text : List Char) {e : Err} (h : nomCrontab readers text = .error e) :
    e.input <:+ text := by
  induction text using lines_induction with
  | last l hl =>
    rcases line_cases readers hl with ⟨r,entry,-,hl,-⟩ | ⟨d,hd,hl,-⟩
    · rw [hl] at h
      cases h
    · rw [hl] at h
      cases h
      exact hd
  | line l sep rest hl hs ih =>
    rcases line_cases readers hl with ⟨r,entry,-,-,hitem⟩ | ⟨d,hd,-,hline⟩
    · rw [nomCrontab_item (hitem sep rest hs) hs.length_lt] at h
      cases hr : nomCrontab readers rest with
      | ok x =>
        rw [hr] at h
        cases h
      | error e' =>
        rw [hr] at h
        cases h
        exact (ih hr).trans ((List.suffix_append sep rest).trans (List.suffix_append l _))
    · rw [hline sep rest hs] at h
      cases h
      obtain ⟨b,rfl⟩ := hd
      exact ⟨b,by simp⟩

theorem count_line (h : LineEnding l sep) (hl : '\n' ∉ l) (before : List Char) :
    (l ++ (sep ++ before)).count '\n' = before.count '\n' + 1 := by
  rw [List.count_append,List.count_append,List.count_eq_zero_of_not_mem hl]
  cases h <;> simp <;> omega

theorem column_line (h : LineEnding l sep) (before : List Char) :
    ((l ++ (sep ++ before)).reverse.takeWhile fun c => c != '\n') = before.reverse.takeWhile fun c => c != '\n' := by
  have hstop : Stopped (fun c => c == '\n') (sep.reverse ++ l.reverse) := by
    cases h with
    | lf h => exact ⟨'\n',_,rfl,rfl⟩
    | crlf => exact ⟨'\n',_,rfl,rfl⟩
  rw [List.reverse_append,List.reverse_append,List.append_assoc]
  refine takeWhile_stopped ?_ hstop before.reverse
  intro c hc
  simpa using hc

theorem parseCrontab_line (readers : Readers) (hl : '\n' ∉ l) (hs : LineEnding l sep) (rest : List Char) :
    parseCrontab readers (l ++ (sep ++ rest)) =
      match parseCrontab readers l with
      | .error e => .error { e with input := e.input ++ (sep ++ rest) }
      | .ok entries => match parseCrontab readers rest with
        | .error e => .error { e with line := e.line + 1 }
        | .ok more => .ok (entries ++ more) := by
  rcases line_cases readers hl with ⟨r,entry,-,halone,hitem⟩ | ⟨d,⟨b,rfl⟩,halone,hline⟩
  · have hm := nomCrontab_item (hitem sep rest hs) hs.length_lt
    rw [parseCrontab_of_ok halone]
    cases hr : nomCrontab readers rest with
    | ok x =>
      rw [hr] at hm
      rw [parseCrontab_of_ok hm,parseCrontab_of_ok hr]
    | error e =>
      rw [hr] at hm
      obtain ⟨before,hb⟩ := nomCrontab_error readers rest hr
      obtain ⟨input,code,failure⟩ := e
      dsimp only at hb
      subst hb
      have hm' : nomCrontab readers ((l ++ (sep ++ before)) ++ input) = .error ⟨input,code,failure⟩ := by
        rw [List.append_assoc,List.append_assoc]
        exact hm
      rw [parseCrontab_of_error hr,← List.append_assoc sep,← List.append_assoc l,parseCrontab_of_error hm']
      simp only [errorAt,count_line hs hl,column_line hs]
  · have hm : nomCrontab readers (b ++ (d ++ (sep ++ rest))) = .error ⟨d ++ (sep ++ rest),.eof,true⟩ := by
      rw [← List.append_assoc]
      exact hline sep rest hs
    rw [parseCrontab_of_error halone,List.append_assoc,parseCrontab_of_error hm]
    rfl

theorem parseCrontab_ok (readers : Readers) {entries : List Crontab} :
    parseCrontab readers text = .ok entries ↔ ∃ parts, entries = parts.flatten ∧
      List.Forall₂ (fun line part => parseCrontab readers line = .ok part) (lines text) parts := by
  induction text using lines_induction generalizing entries with
  | last l hl =>
    rw [lines_of_not_mem hl]
    constructor
    · intro h
      exact ⟨[entries],by simp,.cons h .nil⟩
    · rintro ⟨parts,rfl,h⟩
      obtain ⟨part,rest,h,hr,rfl⟩ := List.forall₂_cons_left_iff.mp h
      cases hr
      simpa using h
  | line l sep rest hl hs ih =>
    rw [lines_line hl hs,parseCrontab_line readers hl hs]
    constructor
    · intro h
      split at h
      · cases h
      · next part hpart =>
        split at h
        · cases h
        · next more hmore =>
          cases h
          obtain ⟨parts,rfl,hparts⟩ := ih.mp hmore
          exact ⟨part :: parts,rfl,.cons hpart hparts⟩
    · rintro ⟨parts,rfl,h⟩
      obtain ⟨part,parts,hpart,hparts,rfl⟩ := List.forall₂_cons_left_iff.mp h
      rw [hpart,ih.mpr ⟨parts,rfl,hparts⟩]
      rfl

/-- Two texts with a line feed between them are accepted together or not at all. -/
theorem crontab_lines_compose (readers : Readers) (a b : List Char) (h : a.getLast? ≠ some '\r')
    (entries : List Crontab) : parseCrontab readers (a ++ '\n' :: b) = .ok entries ↔
      ∃ first second, parseCrontab readers a = .ok first ∧ parseCrontab readers b = .ok second ∧
        entries = first ++ second := by
  rw [parseCrontab_ok,lines_append h]
  constructor
  · rintro ⟨parts,rfl,hparts⟩
    have hfirst := (List.forall₂_take_append _ (lines a) (lines b) hparts.flip).flip
    have hsecond := (List.forall₂_drop_append _ (lines a) (lines b) hparts.flip).flip
    refine ⟨_,_,(parseCrontab_ok readers).mpr ⟨_,rfl,hfirst⟩,(parseCrontab_ok readers).mpr ⟨_,rfl,hsecond⟩,?_⟩
    rw [← List.flatten_append,List.take_append_drop]
  · rintro ⟨first,second,ha,hb,rfl⟩
    obtain ⟨parts,rfl,hparts⟩ := (parseCrontab_ok readers).mp ha
    obtain ⟨parts',rfl,hparts'⟩ := (parseCrontab_ok readers).mp hb
    exact ⟨parts ++ parts',by simp,List.rel_append hparts hparts'⟩

theorem comment_and_entry_compose : ∃ first second,
    parseCrontab noReaders "# hourly".toList = .ok first ∧ parseCrontab noReaders "0 * * * * t".toList = .ok second ∧
    parseCrontab noReaders ("# hourly".toList ++ '\n' :: "0 * * * * t".toList) = .ok (first ++ second) :=
  ⟨_,_,rfl,rfl,(crontab_lines_compose noReaders _ _ (by decide) _).mpr ⟨_,_,rfl,rfl,rfl⟩⟩

theorem parseCrontab_line_error (hl : '\n' ∉ l) (h : parseCrontab readers l = .error e) :
    e.input <:+ l ∧ e.line = 1 := by
  rcases line_cases readers hl with ⟨r,entry,-,hok,-⟩ | ⟨d,⟨b,rfl⟩,herr,-⟩
  · rw [parseCrontab_of_ok hok] at h
    cases h
  · rw [parseCrontab_of_error herr] at h
    cases h
    have hb : '\n' ∉ b := fun hm => hl (List.mem_append_left d hm)
    exact ⟨List.suffix_append b d,by simp [errorAt,List.count_eq_zero_of_not_mem hb]⟩

/-- The line of this number is the first that is rejected when it is parsed alone. -/
def FirstRejected (readers : Readers) (text : List Char) (number : ℕ) : Prop :=
  ∃ earlier line later, lines text = earlier ++ line :: later ∧ number = earlier.length + 1 ∧
    (∀ l ∈ earlier, ∃ entries, parseCrontab readers l = .ok entries) ∧ ∃ e, parseCrontab readers line = .error e

theorem parseCrontab_error (readers : Readers)
    (h : parseCrontab readers text = .error e) : e.input <:+ text ∧ FirstRejected readers text e.line := by
  induction text using lines_induction generalizing e with
  | last l hl =>
    obtain ⟨hi,hn⟩ := parseCrontab_line_error hl h
    exact ⟨hi,[],l,[],lines_of_not_mem hl,hn,by simp,e,h⟩
  | line l sep rest hl hs ih =>
    rw [parseCrontab_line readers hl hs] at h
    unfold FirstRejected
    rw [lines_line hl hs]
    split at h
    · next e₀ h₀ =>
      obtain ⟨⟨b,hb⟩,hn⟩ := parseCrontab_line_error hl h₀
      cases h
      exact ⟨⟨b,by rw [← List.append_assoc,hb]⟩,[],l,lines rest,rfl,hn,by simp,e₀,h₀⟩
    · next entries hok =>
      split at h
      · next e₁ h₁ =>
        obtain ⟨hi,earlier,line,later,hlines,hn,hearlier,hline⟩ := ih h₁
        cases h
        refine ⟨hi.trans ((List.suffix_append sep rest).trans (List.suffix_append l _)),
          l :: earlier,line,later,by rw [hlines]; rfl,by rw [hn]; rfl,?_,hline⟩
        intro l' hl'
        rcases List.mem_cons.mp hl' with rfl | hl'
        · exact ⟨entries,hok⟩
        · exact hearlier l' hl'
      · cases h

def byteLen (text : List Char) : ℕ := (String.ofList text).utf8ByteSize

theorem isValid_suffix {input : List Char} (h : input <:+ text) : byteLen input ≤ byteLen text ∧
    String.Pos.Raw.IsValid (String.ofList text) ⟨byteLen text - byteLen input⟩ := by
  obtain ⟨before,rfl⟩ := h
  have hlen : byteLen (before ++ input) = byteLen before + byteLen input := by
    simp only [byteLen,String.ofList_append,String.utf8ByteSize_append]
  refine ⟨by omega,String.Pos.Raw.isValid_iff_exists_append.mpr ⟨String.ofList before,String.ofList input,?_,?_⟩⟩
  · exact String.ofList_append
  · rw [hlen,Nat.add_sub_cancel]
    rfl

/-- The line reported for a rejected text is the first that is rejected by itself. -/
theorem crontab_error_located (readers : Readers) (text : List Char) (e : CrontabParseError)
    (h : parseCrontab readers text = .error e) : e.input <:+ text ∧ byteLen e.input ≤ byteLen text ∧
      String.Pos.Raw.IsValid (String.ofList text) ⟨byteLen text - byteLen e.input⟩ ∧
      FirstRejected readers text e.line := by
  obtain ⟨hi,hline⟩ := parseCrontab_error readers h
  obtain ⟨hle,hvalid⟩ := isValid_suffix hi
  exact ⟨hi,hle,hvalid,hline⟩

def secondLineWrong : List Char := "# é\r\n* * * * t\n".toList

theorem second_line_located : ∃ e, parseCrontab noReaders secondLineWrong = .error e ∧ e.line = 2 ∧
    FirstRejected noReaders secondLineWrong e.line :=
  ⟨_,rfl,rfl,(crontab_error_located noReaders secondLineWrong _ rfl).2.2.2⟩

end

end GraphileWorker.Cron

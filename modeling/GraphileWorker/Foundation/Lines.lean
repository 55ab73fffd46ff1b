import Mathlib.Data.List.Basic
import Mathlib.Tactic.Common

/-! # Lines of a text

A text is cut at its line feeds. A carriage return right before one belongs to the ending.
-/
namespace GraphileWorker.Foundation

def lines : List Char → List (List Char)
  | [] => [[]]
  | '\n' :: rest => [] :: lines rest
  | '\r' :: '\n' :: rest => [] :: lines rest
  | c :: rest => (lines rest).modifyHead (c :: ·)

/-- What may end the line before it. A carriage return there would be part of the ending. -/
inductive LineEnding : List Char → List Char → Prop
  | lf {l : List Char} (h : l.getLast? ≠ some '\r') : LineEnding l ['\n']
  | crlf {l : List Char} : LineEnding l ['\r','\n']

variable {l sep rest : List Char} {c : Char}

theorem LineEnding.tail (h : LineEnding (c :: l) sep) : LineEnding l sep := by
  cases h with
  | crlf => exact .crlf
  | lf h =>
    refine .lf fun hl => h ?_
    rw [List.getLast?_cons,hl]
    rfl

theorem LineEnding.cons (h : LineEnding l sep) (hc : c = '\r' → sep = ['\n'] → l ≠ []) :
    LineEnding (c :: l) sep := by
  cases h with
  | crlf => exact .crlf
  | lf h =>
    refine .lf ?_
    cases l with
    | nil => simpa using fun hr => hc hr rfl
    | cons d l => simpa [List.getLast?_cons_cons] using h

theorem LineEnding.length_lt (h : LineEnding l sep) : rest.length < (l ++ (sep ++ rest)).length := by
  rw [List.length_append,List.length_append]
  cases h <;> simp <;> omega

theorem lines_cons_of_ne (hc : c ≠ '\n') (hr : c = '\r' → rest.head? ≠ some '\n') :
    lines (c :: rest) = (lines rest).modifyHead (c :: ·) := by
  rw [lines]
  · exact hc
  · rintro tail rfl rfl
    exact hr rfl rfl

theorem lines_of_not_mem (h : '\n' ∉ l) : lines l = [l] := by
  induction l with
  | nil => rfl
  | cons c l ih =>
    obtain ⟨hc,hl⟩ := List.ne_and_not_mem_of_not_mem_cons h
    have hr : l.head? ≠ some '\n' := fun he => hl (List.mem_of_head? he)
    rw [lines_cons_of_ne (Ne.symm hc) fun _ => hr,ih hl]
    rfl

theorem lines_line (h : '\n' ∉ l) (hs : LineEnding l sep) : lines (l ++ (sep ++ rest)) = l :: lines rest := by
  induction l with
  | nil => cases hs <;> rfl
  | cons c l ih =>
    obtain ⟨hc,hl⟩ := List.ne_and_not_mem_of_not_mem_cons h
    have hr : c = '\r' → (l ++ (sep ++ rest)).head? ≠ some '\n' := by
      rintro rfl
      cases l with
      | cons d l => simpa using fun he : d = '\n' => hl (by simp [he])
      | nil =>
        cases hs with
        | lf h => simp at h
        | crlf => simp
    rw [List.cons_append,lines_cons_of_ne (Ne.symm hc) hr,ih hl hs.tail]
    rfl

theorem exists_line (text : List Char) : '\n' ∉ text ∨
    ∃ l sep rest, text = l ++ (sep ++ rest) ∧ '\n' ∉ l ∧ LineEnding l sep := by
  induction text with
  | nil => exact .inl (by simp)
  | cons c text ih =>
    by_cases hc : c = '\n'
    · exact .inr ⟨[],['\n'],text,by simp [hc],by simp,.lf (by simp)⟩
    · rcases ih with ih | ⟨l,sep,rest,rfl,hl,hs⟩
      · exact .inl (List.not_mem_cons_of_ne_of_not_mem (Ne.symm hc) ih)
      · by_cases hr : c = '\r' ∧ sep = ['\n'] ∧ l = []
        · obtain ⟨rfl,rfl,rfl⟩ := hr
          exact .inr ⟨[],['\r','\n'],rest,rfl,by simp,.crlf⟩
        · refine .inr ⟨c :: l,sep,rest,rfl,List.not_mem_cons_of_ne_of_not_mem (Ne.symm hc) hl,hs.cons ?_⟩
          exact fun h h' he => hr ⟨h,h',he⟩

theorem lines_induction {motive : List Char → Prop} (last : ∀ l, '\n' ∉ l → motive l)
    (line : ∀ l sep rest, '\n' ∉ l → LineEnding l sep → motive rest → motive (l ++ (sep ++ rest)))
    (text : List Char) : motive text := by
  induction hn : text.length using Nat.strongRecOn generalizing text with
  | _ n ih =>
    rcases exists_line text with h | ⟨l,sep,rest,rfl,hl,hs⟩
    · exact last text h
    · exact line l sep rest hl hs (ih rest.length (hn ▸ hs.length_lt) rest rfl)

theorem not_mem_of_mem_lines {text : List Char} (h : l ∈ lines text) : '\n' ∉ l := by
  induction text using lines_induction with
  | last l' hl =>
    rw [lines_of_not_mem hl,List.mem_singleton] at h
    rwa [h]
  | line l' sep rest hl hs ih =>
    rw [lines_line hl hs,List.mem_cons] at h
    rcases h with rfl | h
    · exact hl
    · exact ih h

theorem lines_append {a b : List Char} (h : a.getLast? ≠ some '\r') :
    lines (a ++ '\n' :: b) = lines a ++ lines b := by
  induction a using lines_induction with
  | last l hl =>
    have hb : lines (l ++ '\n' :: b) = l :: lines b := lines_line hl (.lf h)
    rw [hb,lines_of_not_mem hl]
    rfl
  | line l sep rest hl hs ih =>
    have hr : rest.getLast? ≠ some '\r' := by
      intro he
      apply h
      rw [List.getLast?_append,List.getLast?_append,he]
      rfl
    rw [List.append_assoc,List.append_assoc,lines_line hl hs,lines_line hl hs,ih hr]
    rfl

end GraphileWorker.Foundation

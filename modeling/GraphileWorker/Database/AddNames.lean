import GraphileWorker.Database.AddJobs
import GraphileWorker.Foundation.NamedTable
import Mathlib.Data.List.Dedup

/-! # The names that adding jobs registers

Tasks and queues are tables with a column of names. An insert succeeds exactly if every
name is known or short enough.
-/
namespace GraphileWorker.Database
open Foundation

def taskNames : NameColumn Task String := ⟨Task.identifier,newTask,rowId_newTask,fun _ _ => rfl⟩
def queueNames : NameColumn JobQueue String := ⟨JobQueue.queueName,newQueue,rowId_newQueue,fun _ _ => rfl⟩

section Names
variable {α : Type} [RowId α] {c : NameColumn α String} {t : IdTable α} {x : String} {xs ys : List String}

def Admits (c : NameColumn α String) (t : IdTable α) (xs : List String) : Prop :=
  ∀ x ∈ xs, (c.idOf t x).isSome = true ∨ x.length ≤ 128

theorem admits_cons : Admits c t (x :: xs) ↔
    ((c.idOf t x).isSome = true ∨ x.length ≤ 128) ∧ Admits c (c.register t x) xs := by
  have hknown : ∀ y, (c.idOf (c.register t x) y).isSome = true ↔ (c.idOf t y).isSome = true ∨ y ∈ [x] := by
    intro y
    show (c.idOf (c.registerAll t [x]) y).isSome = true ↔ _
    exact NameColumn.isSome_idOf_registerAll
  constructor
  · intro h
    refine ⟨h x List.mem_cons_self,fun y hy => ?_⟩
    rw [hknown]
    exact (h y (List.mem_cons_of_mem x hy)).imp_left .inl
  · rintro ⟨hx,h⟩ y hy
    rcases List.mem_cons.mp hy with rfl | hy
    · exact hx
    · have hafter := h y hy
      rw [hknown] at hafter
      rcases hafter with (hold | hnew) | hlen
      · exact .inl hold
      · rw [List.mem_singleton.mp hnew]
        exact hx
      · exact .inr hlen

/-- A loop that registers one admitted name after the other, and fails at the first other one;
`g` reads the table out of the tables and `u` writes it. -/
theorem foldlM_register {f : Db → String → Except SqlError Db} {g : Db → IdTable α} {u : Db → IdTable α → Db}
    (hget : ∀ d t, g (u d t) = t) (hset : ∀ d t t', u (u d t) t' = u d t') (hself : ∀ d, u d (g d) = d)
    (hok : ∀ d x, (c.idOf (g d) x).isSome = true ∨ x.length ≤ 128 → f d x = .ok (u d (c.register (g d) x)))
    (herr : ∀ d x d', f d x = .ok d' → (c.idOf (g d) x).isSome = true ∨ x.length ≤ 128) (d : Db) :
    (Admits c (g d) xs → xs.foldlM f d = .ok (u d (c.registerAll (g d) xs))) ∧
      ∀ d', xs.foldlM f d = .ok d' → Admits c (g d) xs := by
  induction xs generalizing d with
  | nil => exact ⟨fun _ => congrArg Except.ok (hself d).symm,nofun⟩
  | cons x rest ih =>
    constructor
    · intro h
      obtain ⟨hx,hrest⟩ := admits_cons.mp h
      have hnext := (ih (u d (c.register (g d) x))).1
      rw [hget,hset] at hnext
      exact (bind_of_ok (hok d x hx) _).trans (hnext hrest)
    · intro d' h
      obtain ⟨d₁,h₁,hr⟩ := bind_eq_ok h
      have hx := herr d x d₁ h₁
      have hd : d₁ = u d (c.register (g d) x) := Except.ok.inj (h₁.symm.trans (hok d x hx))
      have hrest := (ih d₁).2 d' hr
      rw [hd,hget] at hrest
      exact admits_cons.mpr ⟨hx,hrest⟩

end Names

variable {db d : Db} {spec : DbJobSpec} {specs rest : List DbJobSpec} {now : Time} {preserve : Bool} {x : String}

theorem insertTask_ok (h : (taskIdOf db x).isSome = true ∨ x.length ≤ 128) :
    insertTask db x = .ok { db with tasks := taskNames.register db.tasks x } := by
  by_cases hs : (taskIdOf db x).isSome = true
  · have hstay : taskNames.register db.tasks x = db.tasks := if_pos hs
    rw [insertTask,if_pos hs,hstay]
  · have hadd : taskNames.register db.tasks x = db.tasks.insert (newTask x) (rowId_newTask x) := if_neg hs
    rw [insertTask,if_neg hs,if_pos (h.resolve_left hs),hadd]

theorem insertQueue_ok (h : (queueIdOf db x).isSome = true ∨ x.length ≤ 128) :
    insertQueue db x = .ok { db with jobQueues := queueNames.register db.jobQueues x } := by
  by_cases hs : (queueIdOf db x).isSome = true
  · have hstay : queueNames.register db.jobQueues x = db.jobQueues := if_pos hs
    rw [insertQueue,if_pos hs,hstay]
  · have hadd : queueNames.register db.jobQueues x = db.jobQueues.insert (newQueue x) (rowId_newQueue x) := if_neg hs
    rw [insertQueue,if_neg hs,if_pos (h.resolve_left hs),hadd]

theorem admitted_of_insertTask (h : insertTask db x = .ok d) : (taskIdOf db x).isSome = true ∨ x.length ≤ 128 := by
  by_contra hn
  rw [not_or] at hn
  rw [insertTask,if_neg hn.1,if_neg hn.2] at h
  cases h

theorem admitted_of_insertQueue (h : insertQueue db x = .ok d) :
    (queueIdOf db x).isSome = true ∨ x.length ≤ 128 := by
  by_contra hn
  rw [not_or] at hn
  rw [insertQueue,if_neg hn.1,if_neg hn.2] at h
  cases h

theorem insertTasks_ok_iff (db : Db) (xs : List String) :
    (Admits taskNames db.tasks xs →
      xs.foldlM insertTask db = .ok { db with tasks := taskNames.registerAll db.tasks xs }) ∧
    ∀ d, xs.foldlM insertTask db = .ok d → Admits taskNames db.tasks xs :=
  foldlM_register (c := taskNames) (f := insertTask) (g := Db.tasks) (u := fun d t => { d with tasks := t })
    (fun _ _ => rfl) (fun _ _ _ => rfl) (fun _ => rfl) (fun _ _ => insertTask_ok)
    (fun _ _ _ => admitted_of_insertTask) db

theorem insertQueues_ok_iff (db : Db) (xs : List String) :
    (Admits queueNames db.jobQueues xs →
      xs.foldlM insertQueue db = .ok { db with jobQueues := queueNames.registerAll db.jobQueues xs }) ∧
    ∀ d, xs.foldlM insertQueue db = .ok d → Admits queueNames db.jobQueues xs :=
  foldlM_register (c := queueNames) (f := insertQueue) (g := Db.jobQueues) (u := fun d t => { d with jobQueues := t })
    (fun _ _ => rfl) (fun _ _ _ => rfl) (fun _ => rfl) (fun _ _ => insertQueue_ok)
    (fun _ _ _ => admitted_of_insertQueue) db

def Db.register (db : Db) (identifiers queues : List String) : Db :=
  { db with
    tasks := taskNames.registerAll db.tasks identifiers
    jobQueues := queueNames.registerAll db.jobQueues queues }

end GraphileWorker.Database

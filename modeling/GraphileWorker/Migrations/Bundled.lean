import GraphileWorker.Migrations.Migrate
import GraphileWorker.Migrations.Scripts01to05
import GraphileWorker.Migrations.Scripts06to13
import GraphileWorker.Migrations.Scripts14to18
import GraphileWorker.Migrations.Scripts19to22

/-! # The bundled migrations under any schema name

Quoting protects a name from all of the text around it but the `$$` that ends the body of a
function, which is looked for before any of the body is lexed.
-/
namespace GraphileWorker.Migrations
open Foundation Foundation.Sql Scripts

def scripts : List Script :=
  [m000001,m000002,m000003,m000004,m000005,m000006,m000007,m000008,m000009,m000010,m000011,m000012,m000013,
   m000014,m000015,m000016,m000017,m000018,m000019,m000020,m000021,m000022]

def bundledSql (n : ℕ) : List String :=
  match scripts[n - 1]? with
  | some script => script.stmts.map statement
  | none => []

variable {m : GraphileWorkerMigration} {stmt : String}

theorem exists_template_of_mem_bundledSql {n : ℕ} (h : stmt ∈ bundledSql n) :
    ∃ items, lexStatement (template stmt) = some items := by
  unfold bundledSql at h
  split at h
  · rename_i script _
    obtain ⟨parts,hparts,rfl⟩ := List.mem_map.mp h
    exact script.lexes parts hparts
  · cases h

theorem exists_template (hm : m ∈ graphileWorkerMigrations bundledSql) (hstmt : stmt ∈ m.stmts) :
    ∃ items, lexStatement (template stmt) = some items := by
  obtain ⟨n,-,rfl⟩ := List.mem_map.mp hm
  exact exists_template_of_mem_bundledSql hstmt

theorem defaultSchemaName_plain : defaultSchemaName ≠ [] ∧ '\x00' ∉ defaultSchemaName ∧
    ¬['$','$'] <:+: defaultSchemaName := by
  decide +kernel

theorem mem_deregister : generatedMigration bundledSql 20 ∈ graphileWorkerMigrations bundledSql ∧
    statement deregisterLines ∈ (generatedMigration bundledSql 20).stmts := by
  refine ⟨List.mem_map_of_mem (by decide),List.mem_map_of_mem ?_⟩
  exact .tail _ (.tail _ (.tail _ (.head _)))

theorem deregister_eq_none {s : List Char} (hne : s ≠ []) (h0 : '\x00' ∉ s) (hd : ['$','$'] <:+: s) :
    lexStatement (plain (executedText (statement deregisterLines) (.new s))) = none := by
  have hopen : ∃ spelling, Spelled deregisterLines spelling ∧
      holeInBody (holes ':' markerName 0 (marked (joinSpelled spelling))) = true :=
    ⟨_,by repeat' constructor,by decide +kernel⟩
  obtain ⟨spelling,hs,hopen⟩ := hopen
  rw [executedText,replaceAll_eq,Schema.new,escapeIdentifier_of_dollar (hd.subset List.mem_cons_self),statement,
    String.toList_ofList,hs.eq_map]
  exact lexStatement_holeInBody hopen hne h0 hd

/-- Under both schemas the text lexes to the same tokens, each with its own name in the marked places. -/
def KeepsTokens (stmt : String) (s : List Char) (items : List Item) : Prop :=
  lexStatement (plain (executedText stmt .default)) = some (items.map (Item.put (schemaToken defaultSchemaName))) ∧
  lexStatement (plain (executedText stmt (.new s))) = some (items.map (Item.put (schemaToken s)))

/-- All statements keep their tokens and the name exactly if there is no `$$` in it and it is not too long.
A longer name without `$$` keeps the tokens, with the name cut to the length of an identifier. -/
theorem schema_name_keeps_tokens {s : List Char} (hne : s ≠ []) (h0 : '\x00' ∉ s) :
    ((∀ m ∈ graphileWorkerMigrations bundledSql, ∀ stmt ∈ m.stmts, ∃ items, KeepsTokens stmt s items) ∧
        identifierOf (schemaToken s) = some s ↔
      ¬['$','$'] <:+: s ∧ (s.map Char.utf8Size).sum ≤ nameLimit) ∧
    (¬['$','$'] <:+: s → ∀ m ∈ graphileWorkerMigrations bundledSql, ∀ stmt ∈ m.stmts, ∃ items,
      KeepsTokens stmt s items ∧ identifierOf (schemaToken s) = some (clip nameLimit s)) := by
  have hkeeps : ¬['$','$'] <:+: s → ∀ m ∈ graphileWorkerMigrations bundledSql, ∀ stmt ∈ m.stmts,
      ∃ items, KeepsTokens stmt s items := by
    intro hd m hm stmt hstmt
    obtain ⟨items,hitems⟩ := exists_template hm hstmt
    obtain ⟨hdne,hd0,hdd⟩ := defaultSchemaName_plain
    exact ⟨items,lexStatement_executedText hitems hdne hd0 hdd,lexStatement_executedText hitems hne h0 hd⟩
  constructor
  · rw [identifierOf_schemaToken,Option.some.injEq,clip_eq_iff]
    refine and_congr_left fun _ => ⟨fun hall hd => ?_,hkeeps⟩
    obtain ⟨items,-,hitems⟩ := hall _ mem_deregister.1 _ mem_deregister.2
    rw [deregister_eq_none hne h0 hd] at hitems
    cases hitems
  · intro hd m hm stmt hstmt
    obtain ⟨items,hitems⟩ := hkeeps hd m hm stmt hstmt
    exact ⟨items,hitems,identifierOf_schemaToken s⟩

def oddName : List Char := ['a','"',' ','$','b']

theorem odd_name_keeps_tokens : ∃ items : List Item,
    lexStatement (plain (executedText (statement deregisterLines) (.new oddName))) =
      some (items.map (Item.put (.quoted oddName))) ∧ identifierOf (.quoted oddName) = some oddName := by
  obtain ⟨hall,hname⟩ := (schema_name_keeps_tokens (s := oddName) (by decide) (by decide)).1.mpr ⟨by decide,by decide⟩
  obtain ⟨items,-,hlex⟩ := hall _ mem_deregister.1 _ mem_deregister.2
  exact ⟨items,hlex,hname⟩

theorem dollars_end_body : ∃ m ∈ graphileWorkerMigrations bundledSql, ∃ stmt ∈ m.stmts,
    (∃ items, lexStatement (plain (executedText stmt .default)) = some items) ∧
    lexStatement (plain (executedText stmt (.new ['a','$','$','b']))) = none := by
  obtain ⟨hm,hstmt⟩ := mem_deregister
  obtain ⟨items,hitems⟩ := exists_template hm hstmt
  obtain ⟨hne,h0,hd⟩ := defaultSchemaName_plain
  refine ⟨_,hm,_,hstmt,⟨_,lexStatement_executedText hitems hne h0 hd⟩,?_⟩
  exact deregister_eq_none (by decide) (by decide) (by decide)

end GraphileWorker.Migrations

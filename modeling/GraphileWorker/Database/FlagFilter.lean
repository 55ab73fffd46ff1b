import GraphileWorker.Database.Tables

/-! # Claim-time flag predicates

`jobs.flags` is NULL or any `jsonb`; an unconfigured predicate adds nothing to the query.
-/
namespace GraphileWorker.Database

/-- `jsonb ?| text[]`: a top-level key, array element or string is listed. -/
def Json.existsAny (labels : List String) : Json → Bool
  | .object fields => fields.any fun f => labels.contains f.1
  | .array items => items.any fun
    | .string s => labels.contains s
    | _ => false
  | .string s => labels.contains s
  | _ => false

structure JobFlagFilter where
  forbidden : List String
  accepted : List String
  allowed : Option (List String)

def JobFlagFilter.unrestricted : JobFlagFilter := ⟨[],[],none⟩

/-- The conjunction built by `clause`, as `WHERE` evaluates it on one row. -/
def JobFlagFilter.accepts (filter : JobFlagFilter) (flags : Option Json) : Bool :=
  (filter.forbidden.isEmpty || !flags.any (Json.existsAny filter.forbidden)) &&
  (filter.accepted.isEmpty || flags.any (Json.existsAny filter.accepted)) &&
  match filter.allowed with
  | none => true
  | some allowed => match flags with
    | none => true
    | some (.object fields) => fields.all fun f => allowed.contains f.1
    | some _ => false

end GraphileWorker.Database

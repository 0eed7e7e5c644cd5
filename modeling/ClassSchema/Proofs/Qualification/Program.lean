/-
Programs that run against the registries of a schema under different options.

* `Term`, `Request`, `Step` — what a program of creations and operations is made of;
* `Registry.trace` — what every step of a program reports;
* `Report.Alike` — two reports that differ in qualified names at most;
* `Step.run_bare`, `trace_bare` — a program runs the same without namespaces, step by step;
* `options_keep_meaning` — options decide how classes are called, and nothing else.

Design notes: values of a program are kept under names, so that an instance can go into another one
and a value that has been read can be written elsewhere.  Both runs are compared with one and the
same run, the one without namespaces: a step there does what it does in either registry.  So the
induction on the program speaks of a single registry, and the two of them meet only in the end.
-/
import ClassSchema.Proofs.Acceptance
import ClassSchema.Proofs.Qualification.Store

namespace ClassSchema

/-! ### Programs -/

/-- A value in a program. -/
inductive Term where
  | given (v : Value)
  /-- What is kept under a name, or null. -/
  | held (x : String)
  /-- A collection with one more value at its next index, if there is one. -/
  | pushed (collection value : Term)
  | inserted (collection : Term) (key : Key) (value : Term)

/-- An operation, as a program asks for it. -/
inductive Request where
  | get (name : String)
  | set (name : String) (t : Term)
  | setting (name : String) (t : Term)
  | add (key property : Option String) (t : Term)
  | append (t : Term) (key : Option String)
  | call (accessor : String) (t : Term) (key : Option String)

/-- A step of a program. -/
inductive Step where
  /-- Creates an instance of a class and keeps it under `x`. -/
  | create (x className : String)
  | keep (x : String) (t : Term)
  /-- Performs an operation on the instance under `x`, and keeps under `out` what comes out. -/
  | perform (x : String) (request : Request) (out : String)

/-- What a step reports: what came out, and all that is kept after it. -/
structure Report where
  result : Except StoreError (Option Value)
  memory : List (String × Value)

/-- Changes the value if it is a collection. -/
def Value.onList (f : Collection Value → Collection Value) : Value → Value
  | list c => list (f c)
  | v => v

/-- The instance that a value is. -/
def Value.instance? : Value → Option Instance
  | object owner bag => some ⟨owner, bag⟩
  | _ => none

/-- The value of a term, given what is kept. -/
def Term.value (m : List (String × Value)) : Term → Value
  | given v => v
  | held x => (Entries.get? x m).getD .null
  | pushed c t => (c.value m).onList fun c => c.pushAll [t.value m]
  | inserted c key t => (c.value m).onList fun c => c.insert key (t.value m)

/-- The operation that is asked for, given what is kept. -/
def Request.operation (m : List (String × Value)) : Request → Operation
  | get name => .get name
  | set name t => .set name (t.value m)
  | setting name t => .setting name (t.value m)
  | add key property t => .add key property (t.value m)
  | append t key => .append (t.value m) key
  | call accessor t key => .call accessor (t.value m) key

/-- Keeps what came out, if something did. -/
def keepResult (out : String) (result : Except StoreError (Option Value))
    (m : List (String × Value)) : List (String × Value) :=
  match result with
  | .ok (some v) => Entries.put out v m
  | _ => m

/-- Runs a step.  Where no instance is kept under its name, nothing happens. -/
def Step.run (r : Registry) (m : List (String × Value)) : Step → Report
  | create x className =>
    match r.create className with
    | .ok i => ⟨.ok none, Entries.put x i.toValue m⟩
    | .error e => ⟨.error e, m⟩
  | keep x t => ⟨.ok none, Entries.put x (t.value m) m⟩
  | perform x request out =>
    match (Entries.get? x m).bind Value.instance? with
    | none => ⟨.ok none, m⟩
    | some i =>
      let o := i.perform (request.operation m)
      ⟨o.result, keepResult out o.result (Entries.put x o.after.toValue m)⟩

/-- What the steps of a program report, each run on what the one before it has left. -/
def Registry.trace (r : Registry) (m : List (String × Value)) : List Step → List Report
  | [] => []
  | step :: rest =>
    let report := step.run r m
    report :: r.trace report.memory rest

/-! ### Programs without namespaces -/

/-- What is kept, without namespaces. -/
def bareMemory (m : List (String × Value)) : List (String × Value) :=
  Entries.mapValues Value.bare m

/-- A report without namespaces. -/
def Report.bare (report : Report) : Report :=
  ⟨bareResult (Option.map Value.bare) report.result, bareMemory report.memory⟩

def Term.bare : Term → Term
  | given v => given v.bare
  | held x => held x
  | pushed c t => pushed c.bare t.bare
  | inserted c key t => inserted c.bare key t.bare

def Request.bare : Request → Request
  | get name => get name
  | set name t => set name t.bare
  | setting name t => setting name t.bare
  | add key property t => add key property t.bare
  | append t key => append t.bare key
  | call accessor t key => call accessor t.bare key

def Step.bare : Step → Step
  | create x className => create x className
  | keep x t => keep x t.bare
  | perform x request out => perform x request.bare out

variable {m : List (String × Value)}

theorem Value.onList_bare {f g : Collection Value → Collection Value}
    (h : ∀ c, g (c.map bare) = (f c).map bare) (v : Value) :
    v.bare.onList g = (v.onList f).bare := by
  cases v with
  | list c => simp [onList, h]
  | object owner bag => simp [onList]
  | _ => rfl

theorem Value.instance?_bare (v : Value) : v.bare.instance? = v.instance?.map Instance.bare := by
  cases v with
  | object owner bag => rw [bare_object]; rfl
  | _ => rfl

theorem Term.value_bare (t : Term) : t.bare.value (bareMemory m) = (t.value m).bare := by
  induction t with
  | given v => rfl
  | held x =>
    rw [bare, value, value, bareMemory, Entries.get?_mapValues]
    rcases Entries.get? x m with _ | v
    · rfl
    · rfl
  | pushed c t ihc iht =>
    rw [bare, value, value, ihc, iht]
    exact Value.onList_bare (fun c => Collection.pushAll_map Value.bare c [t.value m]) (c.value m)
  | inserted c key t ihc iht =>
    rw [bare, value, value, ihc, iht]
    exact Value.onList_bare (fun c => Collection.insert_map Value.bare c key (t.value m))
      (c.value m)

theorem Request.operation_bare (request : Request) :
    request.bare.operation (bareMemory m) = (request.operation m).bare := by
  cases request <;> simp [bare, operation, Operation.bare, Term.value_bare]

theorem keepResult_bare (out : String) (result : Except StoreError (Option Value))
    (m : List (String × Value)) :
    keepResult out (bareResult (Option.map Value.bare) result) (bareMemory m) =
      bareMemory (keepResult out result m) := by
  rcases result with e | v
  · rfl
  · rcases v with _ | v
    · rfl
    · exact Entries.put_mapValues Value.bare out v m

/-- A step does the same without namespaces. -/
theorem Step.run_bare (r : Registry) (step : Step) :
    step.bare.run r.bare (bareMemory m) = (step.run r m).bare := by
  cases step with
  | create x className =>
    rw [bare, run, run, Registry.create_bare]
    rcases r.create className with e | i
    · rfl
    · simp only [bareResult, Instance.toValue_bare, bareMemory, Entries.put_mapValues]
      rfl
  | keep x t =>
    rw [bare, run, run, Term.value_bare, bareMemory, Entries.put_mapValues]
    rfl
  | perform x request out =>
    have hheld : (Entries.get? x (bareMemory m)).bind Value.instance? =
        ((Entries.get? x m).bind Value.instance?).map Instance.bare := by
      rw [bareMemory, Entries.get?_mapValues]
      rcases Entries.get? x m with _ | v
      · rfl
      · exact v.instance?_bare
    rw [bare, run, run, hheld]
    rcases (Entries.get? x m).bind Value.instance? with _ | i
    · rfl
    · -- the operation does the same, and what is kept afterwards is written to the same names
      simp only [Option.map_some, Request.operation_bare, Instance.perform_bare]
      have hafter : Entries.put x (i.perform (request.operation m)).after.bare.toValue
          (bareMemory m) =
          bareMemory (Entries.put x (i.perform (request.operation m)).after.toValue m) := by
        rw [Instance.toValue_bare, bareMemory, Entries.put_mapValues]
        rfl
      simp only [Outcome.bare, hafter, keepResult_bare]
      rfl

/-- A program reports the same without namespaces. -/
theorem Registry.trace_bare (r : Registry) (program : List Step) (m : List (String × Value)) :
    r.bare.trace (bareMemory m) (program.map Step.bare) = (r.trace m program).map Report.bare := by
  induction program generalizing m with
  | nil => rfl
  | cons step rest ih =>
    rw [List.map_cons, trace, trace, List.map_cons, Step.run_bare, ← ih]
    rfl

/-! ### Two runs of one program -/

/-- Two reports differ in qualified names at most: the step has succeeded in both or failed in both
with errors that say the same of classes whose qualified names may differ, and all that is kept is
the same but for qualified names, and is written as the same JSON. -/
structure Report.Alike (a b : Report) : Prop where
  result : bareResult (Option.map Value.bare) a.result = bareResult (Option.map Value.bare) b.result
  memory : bareMemory a.memory = bareMemory b.memory
  json : Entries.mapValues Value.toJson a.memory = Entries.mapValues Value.toJson b.memory

theorem Report.alike_of_bare_eq {a b : Report} (h : a.bare = b.bare) : a.Alike b := by
  obtain ⟨hresult, hmemory⟩ := Report.mk.inj h
  refine ⟨hresult, hmemory, ?_⟩
  have hjson : ∀ m : List (String × Value),
      Entries.mapValues Value.toJson (bareMemory m) = Entries.mapValues Value.toJson m := by
    intro m
    simp [bareMemory, Entries.mapValues, Value.toJson_bare]
  rw [← hjson a.memory, ← hjson b.memory, hmemory]

/-- A program runs alike against registries that differ in namespaces only. -/
theorem Registry.trace_alike {r r' : Registry} (h : r.bare = r'.bare) (program : List Step) :
    List.Forall₂ Report.Alike (r.trace [] program) (r'.trace [] program) := by
  have htrace : (r.trace [] program).map Report.bare = (r'.trace [] program).map Report.bare := by
    rw [← trace_bare, ← trace_bare, h]
  have hsame : List.Forall₂ (fun a b : Report => a.bare = b.bare)
      (r.trace [] program) (r'.trace [] program) := by
    rw [← List.forall₂_map_right_iff, ← List.forall₂_map_left_iff, List.forall₂_eq_eq_eq]
    exact htrace
  exact hsame.imp fun _ _ => Report.alike_of_bare_eq

/-- **Options never change the meaning of a schema.**  Under any two options a schema is refused for
the same defect, or it compiles under both.  Then the descriptors and the accessors that they bring
along differ in namespaces and qualified names only, both link, and every program of creations and
operations takes the same course against both registries: at each of its steps it succeeds or fails
alike, with the same kind of error, and what it has made so far is the same but for qualified names
and is written as the same JSON. -/
theorem Json.options_keep_meaning (schema : Json) (options others : Options) :
    (∃ e, schema.compileSchema options = .error e ∧ schema.compileSchema others = .error e) ∨
      ∃ ds ds' r r',
        schema.compileSchema options = .ok ds ∧ schema.compileSchema others = .ok ds' ∧
        ds.map Descriptor.bare = ds'.map Descriptor.bare ∧
        ds.map (fun d => d.signatures.map Signature.bare) =
          ds'.map (fun d => d.signatures.map Signature.bare) ∧
        Registry.link ds = .ok r ∧ Registry.link ds' = .ok r' ∧
        ∀ program : List Step,
          List.Forall₂ Report.Alike (r.trace [] program) (r'.trace [] program) := by
  rcases Except.agree_of_map_eq (schema.compileSchema_bare options others) with
    ⟨e, he, he'⟩ | ⟨ds, ds', hds, hds', hbare⟩
  · exact Or.inl ⟨e, he, he'⟩
  · obtain ⟨r, hr, -⟩ := Registry.ofSchema_of_ok hds
    obtain ⟨r', hr', -⟩ := Registry.ofSchema_of_ok hds'
    -- one registry is what the descriptors without namespaces link to
    have hregistry : r.bare = r'.bare := by
      have hlink := Registry.link_bare ds
      rw [hbare, Registry.link_bare, hr, hr'] at hlink
      exact (Except.ok.inj hlink).symm
    have hsignatures : ∀ ds : List Descriptor, ds.map (fun d => d.signatures.map Signature.bare) =
        (ds.map Descriptor.bare).map Descriptor.signatures := by
      intro ds
      rw [List.map_map]
      exact List.map_congr_left fun d _ => (d.signatures_bare).symm
    refine Or.inr ⟨ds, ds', r, r', hds, hds', hbare, ?_, hr, hr', Registry.trace_alike hregistry⟩
    rw [hsignatures, hsignatures, hbare]

-- what the descriptors say of qualified names does depend on the options
example : ((Json.obj [("oak", .obj [])]).compileSchema { defaultNamespace := some "wood" }).map
    (List.map Descriptor.qualified) = .ok ["wood.Oak"] := by with_unfolding_all rfl

end ClassSchema

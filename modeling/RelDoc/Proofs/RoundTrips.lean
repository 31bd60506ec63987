import RelDoc.Proofs.CountedCalls
import RelDoc.Proofs.Increments

namespace RelDoc

namespace Query

inductive Read : Type → Type where
  | get : Read ResultSet
  | cursor : Read (List Document)
  | first : Read (Option Document)
  | find (id : Literal) : Read (Option Document)
  | nonempty : Read Bool
  | value (column : String) : Read (Option Value)
  | pluck (column : String) : Read (List Value)
  | pluckWithKey (column key : String) : Read (List (Value × Value))
  | aggregateValue (function : AggregateFunction) (columns : List String) : Read (Option Value)
  | count : Read Nat
  | sum (column : String) : Read (Option Value)
  | average (column : String) : Read (Option Value)
  | minimum (column : String) : Read (Option Value)
  | maximum (column : String) : Read (Option Value)
  | distinctValues (column : Option String) : Read (List Value)

inductive Write : Type → Type where
  | insert (rows : List Literal) : Write Bool
  | insertGetId (row : Literal) : Write (Option Value)
  | update (columns : Literal) : Write Nat
  | increment (column : String) (amount : Literal) (extra : Option Literal) : Write Nat
  | decrement (column : String) (amount : Literal) (extra : Option Literal) : Write Nat
  | push (column : String) (l : Literal) (unique : Bool) : Write Nat
  | pull (column : String) (l : Literal) : Write Nat
  | drop (columns : List String) : Write Nat
  | delete : Write Nat
  | deleteId (id : Literal) : Write Nat
  | truncate : Write Bool

inductive Operation (α : Type) where
  | read (r : Read α)
  | write (w : Write α)

variable {α : Type}

def Read.request (q : Query) : Read α → Request α
  | .get => q.get
  | .cursor => q.cursor
  | .first => q.first
  | .find id => q.find id
  | .nonempty => q.nonempty
  | .value column => q.value column
  | .pluck column => q.pluck column
  | .pluckWithKey column key => q.pluckWithKey column key
  | .aggregateValue function columns => q.aggregateValue function columns
  | .count => q.count
  | .sum column => q.sum column
  | .average column => q.average column
  | .minimum column => q.minimum column
  | .maximum column => q.maximum column
  | .distinctValues column => q.distinctValues column

def Write.request (q : Query) : Write α → Request α
  | .insert rows => Query.insert rows
  | .insertGetId row => Query.insertGetId row
  | .update columns => q.update columns
  | .increment column amount extra => q.increment column amount extra
  | .decrement column amount extra => q.decrement column amount extra
  | .push column l unique => q.push column l unique
  | .pull column l => q.pull column l
  | .drop columns => q.drop columns
  | .delete => q.delete
  | .deleteId id => q.deleteId id
  | .truncate => Query.truncate

def Operation.request (q : Query) : Operation α → Request α
  | .read r => r.request q
  | .write w => w.request q

def Read.plan (q : Query) : Read α → Plan
  | .get | .cursor => q.plan
  | .first | .nonempty => q.plan.limitedTo 1
  | .find id => (q.plan.filter (.compare q.settings.idField "=" id false)).limitedTo 1
  | .value column => (q.plan.select [column]).limitedTo 1
  | .pluck column => q.plan.select [column]
  | .pluckWithKey column key => q.plan.select [column, key]
  | .aggregateValue function columns => (q.plan.select columns).aggregating function columns
  | .count => (q.plan.select ["*"]).aggregating .count ["*"]
  | .sum column => (q.plan.select [column]).aggregating .sum [column]
  | .average column => (q.plan.select [column]).aggregating .avg [column]
  | .minimum column => (q.plan.select [column]).aggregating .min [column]
  | .maximum column => (q.plan.select [column]).aggregating .max [column]
  | .distinctValues column => q.plan.distinctOn column

def Read.takes : Read α → Strategy → Bool
  | .cursor, strategy => strategy.isStreamable
  | _, _ => true

end Query

def Strategy.kind : Strategy → CallKind
  | .find _ _ => .find
  | .aggregate _ _ => .aggregate
  | .distinct _ _ => .distinct
  | .count _ => .count

def Literal.IsMap (l : Literal) : Prop := ∃ d, l.toValue = .document d

def Literal.IsNumber (l : Literal) : Prop := ∃ x, l.toValue.numeric? = some x

namespace Query

variable {α : Type}

def Unfiltered (q : Query) : Prop := ∃ e, Scope.filter q.settings q.plan.clauses = .error e

def Read.Refused (q : Query) (r : Read α) : Prop :=
  (∃ e, (r.plan q).strategy q.settings = .error e) ∨
    ∃ strategy, (r.plan q).strategy q.settings = .ok strategy ∧ r.takes strategy = false

def Write.Refused (q : Query) : Write α → Prop
  | .insert rows => (∃ row ∈ rows, ¬ row.IsMap) ∨ rows = []
  | .insertGetId row => ¬ row.IsMap
  | .update columns => ¬ columns.IsMap ∨ q.Unfiltered
  | .increment _ amount extra =>
    (¬ amount.IsNumber ∨ ∃ l ∈ extra, ¬ l.IsMap) ∨ q.Unfiltered
  | .decrement _ amount extra =>
    (¬ amount.IsNumber ∨ amount.toValue = .int64 Int64.minValue ∨ ∃ l ∈ extra, ¬ l.IsMap) ∨
      q.Unfiltered
  | .push _ _ _ | .pull _ _ | .drop _ | .delete | .deleteId _ => q.Unfiltered
  | .truncate => False

def Write.kind : Write α → CallKind
  | .insert _ | .insertGetId _ => .insert
  | .delete | .deleteId _ | .truncate => .delete
  | _ => .update

def Operation.Refused (q : Query) : Operation α → Prop
  | .read r => r.Refused q
  | .write w => w.Refused q

def Operation.kind (q : Query) : Operation α → Option CallKind
  | .read r => ((r.plan q).strategy q.settings).toOption.map Strategy.kind
  | .write w => some w.kind

end Query

namespace Request

variable {α β : Type} {refused : Prop} {kind : Option CallKind}

inductive Asks (refused : Prop) (kind : Option CallKind) : Request α → Prop where
  | nothing (answer : Except QueryError α) (h : refused) : Asks refused kind (.settled answer)
  | once {β : Type} (command : Command β) (answer : β → α) (h : ¬ refused)
      (hkind : kind = some command.kind) : Asks refused kind (.issue command answer)

theorem Asks.map {r : Request α} (h : r.Asks refused kind) (f : α → β) :
    (r.map f).Asks refused kind := by
  cases h with
  | nothing answer h => exact .nothing _ h
  | once command answer h hkind => exact .once command _ h hkind

theorem asks_after {x : Except QueryError α} {next : α → Request β} {fails : Prop}
    (hfails : (∃ e, x = .error e) ↔ fails) (h : ∀ a, x = .ok a → (next a).Asks refused kind) :
    (after x next).Asks (fails ∨ refused) kind := by
  cases x with
  | error e => exact .nothing _ (Or.inl (hfails.mp ⟨e, rfl⟩))
  | ok a =>
    have hbuilt : ¬ fails := by simp [← hfails]
    have hnext := h a rfl
    rw [after]
    generalize next a = r at hnext
    cases hnext with
    | nothing answer hr => exact .nothing _ (Or.inr hr)
    | once command answer hr hkind => exact .once command answer (not_or.mpr ⟨hbuilt, hr⟩) hkind

theorem asks_issue {γ : Type} {x : Except QueryError α} {fails : Prop} {command : α → Command γ}
    {kind : CallKind} (hfails : (∃ e, x = .error e) ↔ fails) (answer : γ → β)
    (hkind : ∀ a, (command a).kind = kind) :
    (after x fun a => .issue (command a) answer).Asks fails (some kind) := by
  have h : (after x fun a => .issue (command a) answer).Asks (fails ∨ False) (some kind) :=
    asks_after hfails fun a _ => .once _ answer not_false (congrArg some (hkind a).symm)
  rwa [or_false] at h

end Request

namespace Strategy

theorem asks_request (strategy : Strategy) {refused : Prop} (h : ¬ refused) :
    strategy.request.Asks refused (some strategy.kind) := by
  cases strategy with
  | _ => exact .once _ _ h rfl

theorem asks_stream (strategy : Strategy) :
    strategy.stream.Asks (strategy.isStreamable = false) (some strategy.kind) := by
  cases strategy with
  | find | aggregate => exact .once _ _ (by simp [isStreamable]) rfl
  | distinct | count => exact .nothing _ rfl

end Strategy

namespace Plan

theorem asks_strategy {α : Type} (p : Plan) (s : Settings) (takes : Strategy → Bool)
    {next : Strategy → Request α}
    (h : ∀ strategy, (next strategy).Asks (takes strategy = false) (some strategy.kind)) :
    (Request.after (p.strategy s) next).Asks
      ((∃ e, p.strategy s = .error e) ∨ ∃ strategy, p.strategy s = .ok strategy ∧
        takes strategy = false) ((p.strategy s).toOption.map Strategy.kind) := by
  apply Request.asks_after Iff.rfl
  intro strategy hstrategy
  have hrefused : (∃ other, p.strategy s = .ok other ∧ takes other = false) ↔
      takes strategy = false := by simp [hstrategy]
  rw [hrefused, hstrategy]
  exact h strategy

end Plan

namespace Query

variable {α : Type} (q : Query)

theorem asks_get (p : Plan) : ({ q with plan := p } : Query).get.Asks
    ((∃ e, p.strategy q.settings = .error e) ∨
      ∃ strategy, p.strategy q.settings = .ok strategy ∧ true = false)
    ((p.strategy q.settings).toOption.map Strategy.kind) :=
  p.asks_strategy q.settings (fun _ => true) fun strategy => strategy.asks_request (by simp)

theorem Read.asks_request (r : Read α) : (r.request q).Asks (r.Refused q)
    (((r.plan q).strategy q.settings).toOption.map Strategy.kind) := by
  have hrows (p : Plan) := (q.asks_get p).map ResultSet.rows
  cases r with
  | get => exact q.asks_get _
  | cursor => exact Plan.asks_strategy _ _ Strategy.isStreamable Strategy.asks_stream
  | first | find | pluck | pluckWithKey | aggregateValue | sum | average | minimum | maximum =>
    exact (hrows _).map _
  | nonempty | value | count => exact ((hrows _).map _).map _
  | distinctValues => exact (q.asks_get _).map _

end Query

namespace Mutation

variable {column : String} {extra : Option Literal} {l : Literal}

theorem error_bind_iff {α β : Type} {x : Except QueryError α} {f : α → Except QueryError β} :
    (∃ e, x.bind f = .error e) ↔
      (∃ e, x = .error e) ∨ ∃ a, x = .ok a ∧ ∃ e, f a = .error e := by
  cases x <;> simp [Except.bind]

theorem columns_error_iff (verb : String) (l : Literal) :
    (∃ e, columns verb l = .error e) ↔ ¬ l.IsMap := by
  rw [columns, Literal.IsMap]
  cases l.toValue <;> simp

theorem update_error_iff (l : Literal) : (∃ e, update l = .error e) ↔ ¬ l.IsMap := by
  rw [← columns_error_iff "update"]
  refine error_bind_iff.trans (or_iff_left ?_)
  rintro ⟨d, -, e, he⟩
  cases he

theorem guard_update {m : Mutation} (h : update l = .ok m) : m.guard = none := by
  rw [update] at h
  rcases hd : columns "update" l with e | d
  · rw [hd] at h
    cases h
  · rw [hd] at h
    obtain rfl := Except.ok.inj h
    rfl

theorem incrementBy_error_iff (column : String) (amount : Value) (extra : Option Literal) :
    (∃ e, incrementBy column amount extra = .error e) ↔ ∃ l ∈ extra, ¬ l.IsMap := by
  cases extra with
  | none => simp [incrementBy, bind, Except.bind, pure, Except.pure]
  | some l =>
    simp only [Option.mem_some_iff, exists_eq_left', incrementBy]
    rw [← columns_error_iff "increment extra columns"]
    refine error_bind_iff.trans (or_iff_left ?_)
    rintro ⟨d, -, e, he⟩
    cases he

theorem amount_cases (l : Literal) :
    ¬ l.IsNumber ∧ (∃ e, Mutation.amount l = .error e) ∨
      l.IsNumber ∧ Mutation.amount l = .ok l.toValue := by
  rw [Mutation.amount, Literal.IsNumber]
  cases l.toValue <;> simp [Value.numeric?]

theorem negated_error_iff (h : l.IsNumber) :
    (∃ e, negated l.toValue = .error e) ↔ l.toValue = .int64 Int64.minValue := by
  obtain ⟨x, hx⟩ := h
  cases hv : l.toValue with
  | int32 n => simp [negated]
  | int64 n =>
    rw [negated]
    split <;> simp_all
  | double y => simp [negated]
  | _ => simp [hv, Value.numeric?] at hx

theorem increment_error_iff : (∃ e, increment column l extra = .error e) ↔
    ¬ l.IsNumber ∨ ∃ l ∈ extra, ¬ l.IsMap := by
  refine error_bind_iff.trans ?_
  rcases amount_cases l with ⟨hl, herror⟩ | ⟨hl, hok⟩
  · exact iff_of_true (Or.inl herror) (Or.inl hl)
  · simp [hok, hl, incrementBy_error_iff]

theorem decrement_error_iff : (∃ e, decrement column l extra = .error e) ↔
    ¬ l.IsNumber ∨ l.toValue = .int64 Int64.minValue ∨ ∃ l ∈ extra, ¬ l.IsMap := by
  refine error_bind_iff.trans ?_
  rcases amount_cases l with ⟨hl, herror⟩ | ⟨hl, hok⟩
  · exact iff_of_true (Or.inl herror) (Or.inl hl)
  · have hby (amount : Value) := incrementBy_error_iff column amount extra
    rw [hok, ← negated_error_iff hl]
    rcases hn : negated l.toValue with e | amount
    · simp [hl, hn, bind, Except.bind]
    · simp [hl, hn, bind, Except.bind, hby]

end Mutation

namespace Query

variable {q : Query}

theorem rows_error_iff (rows : List Literal) :
    (∃ e, rows.mapM row = .error e) ↔ ∃ l ∈ rows, ¬ l.IsMap := by
  induction rows with
  | nil => simp [pure, Except.pure]
  | cons l rest ih =>
    rw [List.mapM_cons, List.exists_mem_cons_iff, ← ih, ← Mutation.columns_error_iff "insert"]
    rcases hl : row l with e | d
    · have hcolumns : Mutation.columns "insert" l = .error e := hl
      simp [hcolumns, bind, Except.bind]
    · have hcolumns : Mutation.columns "insert" l = .ok d := hl
      rcases hrest : rest.mapM row with e | docs
      · simp [bind, Except.bind]
      · simp [hcolumns, bind, Except.bind, pure, Except.pure]

theorem unfiltered_append {c : Condition} (hc : ∃ f, Scope.fragment q.settings c = .ok f) :
    (∃ e, Scope.filter q.settings (q.plan.clauses ++ [⟨.and, c⟩]) = .error e) ↔ q.Unfiltered := by
  have hok (x : Except QueryError Document) : (∃ e, x = .error e) ↔ ¬ ∃ f, x = .ok f := by
    cases x <;> simp
  rw [Unfiltered, hok, hok, not_iff_not]
  constructor
  · rintro ⟨f, hf⟩
    obtain ⟨fs, hfs, -⟩ := Scope.filter_eq_ok.mp hf
    obtain ⟨gs, -, hgs, -, -⟩ := Scope.fragments_of_append hfs
    exact ⟨_, Scope.filter_eq_ok.mpr ⟨gs, hgs, rfl⟩⟩
  · rintro ⟨f, hf⟩
    obtain ⟨fs, hfs, -⟩ := Scope.filter_eq_ok.mp hf
    obtain ⟨g, hg⟩ := hc
    have hgs : Scope.fragments q.settings [⟨.and, c⟩] = .ok [(.and, g)] :=
      Scope.fragments_cons.mpr ⟨g, [], hg, rfl, rfl⟩
    exact ⟨_, Scope.filter_eq_ok.mpr ⟨_, Scope.fragments_append hfs hgs, rfl⟩⟩

theorem fragment_id (s : Settings) (column : String) (id : Literal) :
    ∃ f, Scope.fragment s (.compare column "=" id false) = .ok f := by
  rw [Scope.fragment]
  exact ⟨_, rfl⟩

theorem asks_mutate {m : Mutation}
    (h : m.guard = none ∨ ∃ column, m.guard = some (Mutation.incrementable column)) :
    (q.mutate m).Asks q.Unfiltered (some .update) := by
  refine Request.asks_issue ?_ _ fun _ => rfl
  rcases h with hnone | ⟨column, hsome⟩
  · rw [hnone, Option.toList_none, List.append_nil]
    exact Iff.rfl
  · rw [hsome]
    exact unfiltered_append ⟨_, Scope.fragment_incrementable q.settings column⟩

theorem asks_delete (q : Query) : q.delete.Asks q.Unfiltered (some .delete) :=
  Request.asks_issue Iff.rfl _ fun _ => rfl

theorem rows_eq_nil {rows : List Literal} {docs : List Document} (h : rows.mapM row = .ok docs) :
    docs = [] ↔ rows = [] := by
  cases rows with
  | nil =>
    obtain rfl := Except.ok.inj h
    exact iff_of_true rfl rfl
  | cons l rest =>
    rw [List.mapM_cons] at h
    rcases hl : row l with e | d
    · rw [hl] at h
      cases h
    · rcases hrest : rest.mapM row with e | more
      · rw [hl, hrest] at h
        cases h
      · rw [hl, hrest] at h
        obtain rfl := Except.ok.inj h
        simp

theorem asks_insert (rows : List Literal) :
    (insert rows).Asks ((∃ l ∈ rows, ¬ l.IsMap) ∨ rows = []) (some .insert) := by
  refine Request.asks_after (rows_error_iff rows) fun docs hdocs => ?_
  rw [← rows_eq_nil hdocs, ← List.isEmpty_iff]
  by_cases hnone : docs.isEmpty = true
  · rw [if_pos hnone]
    exact .nothing _ hnone
  · rw [if_neg hnone]
    exact .once _ _ hnone rfl

theorem Write.asks_request {α : Type} (q : Query) (w : Write α) :
    (w.request q).Asks (w.Refused q) (some w.kind) := by
  cases w with
  | insert rows => exact asks_insert rows
  | insertGetId l =>
    exact Request.asks_issue (Mutation.columns_error_iff "insert" l) _ fun _ => rfl
  | update l =>
    exact Request.asks_after (Mutation.update_error_iff l) fun m hm =>
      asks_mutate (Or.inl (Mutation.guard_update hm))
  | increment column amount extra =>
    exact Request.asks_after Mutation.increment_error_iff fun m hm =>
      asks_mutate (Or.inr ⟨column, guard_increment hm⟩)
  | decrement column amount extra =>
    exact Request.asks_after Mutation.decrement_error_iff fun m hm =>
      asks_mutate (Or.inr ⟨column, guard_decrement hm⟩)
  | push | pull | drop => exact asks_mutate (Or.inl rfl)
  | delete => exact q.asks_delete
  | deleteId id =>
    have hunfiltered : (q.withId id).Unfiltered ↔ q.Unfiltered :=
      unfiltered_append (q := q) (fragment_id _ _ id)
    rw [Refused, ← hunfiltered]
    exact asks_delete _
  | truncate => exact .once _ _ not_false rfl

theorem Operation.asks_request {α : Type} (q : Query) (op : Operation α) :
    (op.request q).Asks (op.Refused q) (op.kind q) := by
  cases op with
  | read r => exact r.asks_request q
  | write w => exact w.asks_request q

/-- An operation that is refused leaves documents and counters as they are. Any other one makes one
call, which is counted once, and for a read is of the kind of its strategy. A read is refused when its
plan has no strategy, or none that a cursor can take its results from. A write is refused when some
clause has no filter, or when what it is to write cannot be built, and an insertion of no rows is too. -/
theorem one_call_unless_refused {α : Type} (q : Query) (op : Operation α) (m : Metered) :
    let after := ((op.request q).run m).2
    op.Refused q ∧ after = m ∨
      ¬ op.Refused q ∧ ∃ (β : Type) (command : Command β), op.kind q = some command.kind ∧
        after = (m.run command).2 ∧ after.statistics.total = m.statistics.total + 1 := by
  have hasks := op.asks_request q
  generalize op.request q = r at hasks ⊢
  cases hasks with
  | nothing answer hrefused => exact Or.inl ⟨hrefused, rfl⟩
  | once command answer hrefused hkind =>
    exact Or.inr ⟨hrefused, _, command, hkind, rfl, Statistics.total_record _ _ _⟩

example : ([[], ["city"]].map fun groups =>
    Operation.kind ⟨{ Plan.empty with groups }, .standard, []⟩ (.read .count)) =
      [some .count, some .aggregate] := rfl

end Query

end RelDoc

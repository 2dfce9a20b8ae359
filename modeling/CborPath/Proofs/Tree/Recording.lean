import CborPath.Proofs.Tree.Construction

/-!
# Recorded building

The building of a tree as a list of actions: nodes are created and linked, one after the other.  A run
that fails ends with the actions that it took before.  The recorded run of a document takes its actions
in the order of `build`, and what these make of the tree of a document node alone is what `build` gives.
-/

namespace CborPath

namespace Tree

/-- What building does to a tree at a time. -/
inductive Action
  | create (data : NodeData)
  | attach (anchor node : NodeId)
  deriving DecidableEq, Repr

/-- The tree after an action. -/
def perform (t : Tree) : Action → Tree
  | .create data => (t.create data).1
  | .attach anchor node => t.attach anchor node

/-- The tree after some actions. -/
def performAll (t : Tree) (actions : List Action) : Tree :=
  actions.foldl perform t

@[simp] theorem performAll_nil (t : Tree) :
    t.performAll [] = t :=
  rfl

@[simp] theorem performAll_cons (t : Tree) (action : Action) (actions : List Action) :
    t.performAll (action :: actions) = (t.perform action).performAll actions :=
  rfl

@[simp] theorem performAll_append (t : Tree) (xs ys : List Action) :
    t.performAll (xs ++ ys) = (t.performAll xs).performAll ys :=
  List.foldl_append

/-- Whether a property holds of every action and of the tree that it is taken on. -/
def Steps (p : Tree → Action → Prop) : Tree → List Action → Prop
  | _, [] => True
  | t, action :: actions => p t action ∧ Steps p (t.perform action) actions

section Steps

variable {p : Tree → Action → Prop} {t : Tree} {xs ys : List Action}

theorem steps_append_iff :
    Steps p t (xs ++ ys) ↔ Steps p t xs ∧ Steps p (t.performAll xs) ys := by
  induction xs generalizing t with
  | nil => simp [Steps]
  | cons action xs ih => simp [Steps, ih, and_assoc]

end Steps

/-- A computation that builds: on the tree so far it takes actions, and ends with a result or fails. -/
def Building (α : Type) : Type :=
  Tree → List Action × Except UnsupportedKey α

namespace Building

variable {α β : Type}

/-- The actions that are taken on a tree. -/
def actions (b : Building α) (t : Tree) : List Action :=
  (b t).1

/-- The tree that a computation leaves, unless it fails. -/
def outcome (b : Building α) (t : Tree) : Except UnsupportedKey Tree :=
  (b t).2.map fun _ => t.performAll (b t).1

/-- One computation after the other, on the tree that the first one leaves. -/
def andThen (b : Building α) (next : α → Building β) : Building β :=
  fun t =>
    match b t with
    | (actions, .error e) => (actions, .error e)
    | (actions, .ok x) =>
        let others := next x (t.performAll actions)
        (actions ++ others.1, others.2)

instance : Monad Building where
  pure x := fun _ => ([], .ok x)
  bind := andThen

/-- Creates a node, and gives its place. -/
def create (data : NodeData) : Building NodeId :=
  fun t => ([.create data], .ok t.size)

/-- Links a node to its anchor. -/
def attach (anchor node : NodeId) : Building Unit :=
  fun _ => ([.attach anchor node], .ok ())

/-- Fails without any action. -/
def fail (e : UnsupportedKey) : Building α :=
  fun _ => ([], .error e)

section Bind

variable {p : Tree → Action → Prop} {t : Tree} {b : Building α} {next : α → Building β}
  {actions : List Action}

theorem bind_of_error {e : UnsupportedKey} (h : b t = (actions, .error e)) :
    (b >>= next) t = (actions, .error e) := by
  show andThen b next t = _
  rw [andThen, h]

theorem bind_of_ok {x : α} (h : b t = (actions, .ok x)) :
    (b >>= next) t =
      (actions ++ (next x).actions (t.performAll actions), (next x (t.performAll actions)).2) := by
  show andThen b next t = _
  rw [andThen, h]
  rfl

/-- The tree that is left is the one that the actions make. -/
theorem performAll_of_outcome {t' : Tree} (h : b.outcome t = .ok t') :
    t.performAll (b.actions t) = t' := by
  rw [outcome] at h
  rw [Building.actions]
  cases hResult : (b t).2 with
  | error e =>
      rw [hResult] at h
      cases h
  | ok x =>
      rw [hResult] at h
      exact Except.ok.inj h

/-- What follows goes on from the tree that has been left. -/
theorem outcome_bind {b : Building Unit} (next : Unit → Building β) (t : Tree) :
    (b >>= next).outcome t = b.outcome t >>= (next ()).outcome := by
  cases hRun : b t with
  | mk actions result =>
      cases result with
      | error e =>
          rw [outcome, bind_of_error hRun, outcome, hRun]
          rfl
      | ok x =>
          rw [outcome, bind_of_ok hRun, outcome, hRun]
          dsimp only
          rw [performAll_append]
          rfl

/-- A property holds of all steps if it holds of those of the first part, and of those of what follows
wherever the first part ends without failing. -/
theorem steps_bind {b : Building Unit} {next : Unit → Building β} (h : Steps p t (b.actions t))
    (hNext : ∀ t', b.outcome t = .ok t' → Steps p t' ((next ()).actions t')) :
    Steps p t ((b >>= next).actions t) := by
  cases hRun : b t with
  | mk actions result =>
      rw [Building.actions, hRun] at h
      rw [outcome, hRun] at hNext
      cases result with
      | error e =>
          rw [Building.actions, bind_of_error hRun]
          exact h
      | ok x =>
          rw [Building.actions, bind_of_ok hRun]
          exact steps_append_iff.2 ⟨h, hNext _ rfl⟩

theorem outcome_create_bind (data : NodeData) (next : NodeId → Building β) (t : Tree) :
    (create data >>= next).outcome t = (next t.size).outcome (t.create data).1 :=
  rfl

theorem outcome_attach_bind (anchor node : NodeId) (next : Unit → Building β) (t : Tree) :
    (attach anchor node >>= next).outcome t = (next ()).outcome (t.attach anchor node) :=
  rfl

theorem actions_create_bind (data : NodeData) (next : NodeId → Building β) (t : Tree) :
    (create data >>= next).actions t = .create data :: (next t.size).actions (t.create data).1 :=
  rfl

theorem actions_attach_bind (anchor node : NodeId) (next : Unit → Building β) (t : Tree) :
    (attach anchor node >>= next).actions t =
      .attach anchor node :: (next ()).actions (t.attach anchor node) :=
  rfl

end Bind

end Building

open Building (fail)

mutual

/-- Places a value below an anchor. -/
def recordPlace (anchor : NodeId) (value : Value) (name : String) (depth : Nat) : Building Unit :=
  match value with
  | .sequence items => recordItems anchor items (itemElementName name) depth
  | .mapping entries =>
      match _h : nameEntries entries with
      | .error e => fail e
      | .ok named => recordEntries anchor (sortEntries named) depth
  | .scalar s => do
      let text ← Building.create (NodeData.text s depth)
      Building.attach anchor text
termination_by sizeOf value
decreasing_by
  · simp
  · have := entriesWeight_nameEntries _h
    simp only [entriesWeight_sortEntries, Value.mapping.sizeOf_spec]
    omega

/-- Places an element for each item of a sequence, and the item below it. -/
def recordItems (anchor : NodeId) (items : List Value) (name : String) (depth : Nat) :
    Building Unit :=
  match items with
  | [] => pure ()
  | item :: rest => do
      let element ← Building.create (NodeData.element name depth)
      Building.attach anchor element
      recordPlace element item "" (depth + 1)
      recordItems anchor rest name depth
termination_by sizeOf items

/-- Places named entries.  An element is linked to the anchor once its content is complete. -/
def recordEntries (anchor : NodeId) (entries : List (String × Value)) (depth : Nat) :
    Building Unit :=
  match entries with
  | [] => pure ()
  | (name, value) :: rest =>
      if value.isSequence then do
        recordPlace anchor value name depth
        recordEntries anchor rest depth
      else do
        let element ← Building.create (NodeData.element name depth)
        recordPlace element value "" (depth + 1)
        Building.attach anchor element
        recordEntries anchor rest depth
termination_by entriesWeight entries
decreasing_by
  all_goals simp only [entriesWeight]
  all_goals omega

end

theorem recordPlace_mapping (anchor : NodeId) (entries : List (Value × Value)) (name : String)
    (depth : Nat) :
    recordPlace anchor (.mapping entries) name depth =
      match nameEntries entries with
      | .error e => fail e
      | .ok _ => recordEntries anchor (orderedEntries entries) depth := by
  rw [recordPlace]
  split
  · rename_i e hNamed
    rw [hNamed]
  · rename_i named hNamed
    rw [hNamed, orderedEntries, ← eq_map_of_nameEntries_eq_ok hNamed]

mutual

/-- Recording changes nothing: the actions of placing a value make what placing it gives. -/
theorem outcome_recordPlace (anchor : NodeId) (value : Value) (name : String) (depth : Nat)
    (t : Tree) :
    (recordPlace anchor value name depth).outcome t = t.place anchor value name depth := by
  match value with
  | .sequence items =>
      rw [recordPlace, place]
      exact outcome_recordItems anchor items (itemElementName name) depth t
  | .mapping entries =>
      rw [recordPlace_mapping, place_mapping]
      cases nameEntries entries with
      | error e => rfl
      | ok named => exact outcome_recordEntries anchor (orderedEntries entries) depth t
  | .scalar s =>
      rw [recordPlace, place]
      rfl
termination_by sizeOf value
decreasing_by
  · simp
  · have := entriesWeight_orderedEntries entries
    simp only [Value.mapping.sizeOf_spec]
    omega

theorem outcome_recordItems (anchor : NodeId) (items : List Value) (name : String) (depth : Nat)
    (t : Tree) :
    (recordItems anchor items name depth).outcome t = t.placeItems anchor items name depth := by
  match items with
  | [] =>
      rw [recordItems, placeItems]
      rfl
  | item :: rest =>
      rw [recordItems, placeItems, Building.outcome_create_bind, Building.outcome_attach_bind,
        Building.outcome_bind, outcome_recordPlace t.size item "" (depth + 1)]
      exact congrArg _ (funext fun t' => outcome_recordItems anchor rest name depth t')
termination_by sizeOf items

theorem outcome_recordEntries (anchor : NodeId) (entries : List (String × Value)) (depth : Nat)
    (t : Tree) :
    (recordEntries anchor entries depth).outcome t = t.placeEntries anchor entries depth := by
  match entries with
  | [] =>
      rw [recordEntries, placeEntries]
      rfl
  | (name, value) :: rest =>
      have hRest := funext fun t' => outcome_recordEntries anchor rest depth t'
      rw [recordEntries, placeEntries]
      split
      · rw [Building.outcome_bind, outcome_recordPlace anchor value name depth]
        exact congrArg _ hRest
      · rw [Building.outcome_create_bind, Building.outcome_bind,
          outcome_recordPlace t.size value "" (depth + 1)]
        exact congrArg _ (funext fun t' => congrFun hRest (t'.attach anchor t.size))
termination_by entriesWeight entries
decreasing_by
  all_goals simp only [entriesWeight]
  all_goals omega

end

/-- The building of a tree on a document node alone. -/
def record (value : Value) : Building Unit :=
  recordPlace root value "" 1

theorem outcome_record (value : Value) :
    (record value).outcome start = build value :=
  outcome_recordPlace root value "" 1 start

end Tree

end CborPath

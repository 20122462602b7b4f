import DiagramEnergy.Overrides
import DiagramEnergy.Scalar
import DiagramEnergy.Value

/-!
# The store

A store holds declared objects, each with fields.  A field is a scalar slot or
a shape with a dictionary of properties; scalars and properties hold content
that is still symbolic or already concrete.
-/

namespace DiagramEnergy

inductive Content (N : Type) where
  | symbolic (expr : Expr)
  | concrete (value : Value N)

namespace Content

variable {M N : Type}

instance : Inhabited (Content N) := ⟨.symbolic default⟩

/-- Whether this is the marker of a free slot. -/
def isVary : Content N → Bool
  | .symbolic .vary => true
  | _ => false

def isSymbolic : Content N → Bool
  | .symbolic _ => true
  | .concrete _ => false

def value? : Content N → Option (Value N)
  | .symbolic _ => none
  | .concrete value => some value

def mapFloat (change : N → M) : Content N → Content M
  | .symbolic expr => .symbolic expr
  | .concrete value => .concrete (value.mapFloat change)

end Content

inductive Slot (N : Type) where
  | scalar (content : Content N)
  | shape (kind : String) (properties : Table String (Content N))

namespace Slot

variable {M N : Type}

instance : Inhabited (Slot N) := ⟨.scalar default⟩

def mapFloat (change : N → M) : Slot N → Slot M
  | .scalar content => .scalar (content.mapFloat change)
  | .shape kind properties => .shape kind (properties.map (·.mapFloat change))

end Slot

/-- What a path leads to. -/
inductive Resolved (N : Type) where
  | override (number : N)
  | slot (slot : Slot N)
  | property (content : Content N)

structure Store (N : Type) where
  objects : Table String (Table String (Slot N))

/-- An action that inserts into a store.  What it has inserted stays there when it fails. -/
abbrev Insertion (N : Type) := EStateM Error (Store N)

/-- Inserts into a copy of the store, which takes its place when all is inserted. -/
def Insertion.staged {N : Type} (insertion : Insertion N Unit) : Insertion N Unit := do
  match insertion (← get) with
  | .ok _ copy => set copy
  | .error error _ => throw error

namespace Store

variable {M N : Type}

def empty : Store N := ⟨.empty⟩

instance : Inhabited (Store N) := ⟨empty⟩

/-- Declares an object; one that is declared keeps its fields. -/
def declare (store : Store N) (name : String) : Store N :=
  match store.objects.get? name with
  | some _ => store
  | none => ⟨store.objects.insert name .empty⟩

def hasObject (store : Store N) (name : String) : Bool := store.objects.contains name

def objectNames (store : Store N) : List String := store.objects.keys

/-- All fields with their objects, in the order of the store. -/
def slots (store : Store N) : List (String × String × Slot N) :=
  store.objects.entries.flatMap fun (object, fields) =>
    fields.entries.map fun (name, slot) => (object, name, slot)

def bind (store : Store N) (object name : String) (slot : Slot N) : Store N :=
  ⟨store.objects.modify object (·.insert name slot)⟩

/-! ## Lookup -/

def fieldsOf (store : Store N) (object : String) : Except Error (Table String (Slot N)) :=
  match store.objects.get? object with
  | some fields => .ok fields
  | none => .error (.unknownObject object)

def field (store : Store N) (object name : String) : Except Error (Slot N) := do
  let fields ← store.fieldsOf object
  match fields.get? name with
  | some slot => .ok slot
  | none => .error (.unknownPath (.field object name))

def property (store : Store N) (object name property : String) :
    Except Error (Content N) := do
  match ← store.field object name with
  | .shape _ properties =>
    match properties.get? property with
    | some content => .ok content
    | none => .error (.unknownPath (.property object name property))
  | .scalar _ => .error (.unknownPath (.property object name property))

def lookup (store : Store N) : Path → Except Error (Resolved N)
  | .field object name => .slot <$> store.field object name
  | .property object name property => .property <$> store.property object name property

/-- The override of a path, if it has one, hides its slot. -/
def resolve (store : Store N) (overrides : Overrides N) (path : Path) :
    Except Error (Resolved N) :=
  match overrides.get? path with
  | some number => .ok (.override number)
  | none => store.lookup path

/-- The content of a scalar field or of a property. -/
def content? (store : Store N) (path : Path) : Option (Content N) :=
  match store.lookup path with
  | .ok (.slot (.scalar content)) => some content
  | .ok (.property content) => some content
  | _ => none

/-- The concrete value at a path. -/
def value? (store : Store N) (path : Path) : Option (Value N) :=
  (store.content? path).bind Content.value?

/-! ## Insertion, which never replaces a binding -/

def insertSlot (object name : String) (slot : Slot N) : Insertion N Unit := do
  let store ← get
  let fields ← MonadExcept.ofExcept (store.fieldsOf object)
  match fields.get? name with
  | some _ => throw (.duplicatePath (.field object name))
  | none => set (store.bind object name slot)

def insertShape (object name kind : String) (properties : Table String (Content N)) :
    Insertion N Unit :=
  insertSlot object name (.shape kind properties)

def insertPath (path : Path) (content : Content N) : Insertion N Unit :=
  match path with
  | .field object name => insertSlot object name (.scalar content)
  | .property object name property => do
    let store ← get
    let fields ← MonadExcept.ofExcept (store.fieldsOf object)
    match fields.get? name with
    | some (.shape kind properties) =>
      match properties.get? property with
      | some _ => throw (.duplicatePath path)
      | none => set (store.bind object name (.shape kind (properties.insert property content)))
    | _ => throw (.unknownPath path.owner)

/-- Inserts a batch in order, each path into the store that the paths before it have left. -/
def insertEach (batch : List (Path × Content N)) : Insertion N Unit :=
  batch.forM fun (path, content) => insertPath path content

/-- Inserts a batch, all of it or nothing. -/
def insertPaths (paths : List Path) (contents : List (Content N)) : Insertion N Unit :=
  if paths.length = contents.length then .staged (insertEach (paths.zip contents))
  else throw (.arity "insert_paths" paths.length contents.length)

/-! ## Writing values -/

/-- Writes a value over a scalar field, a missing field of a declared object, or
a property of a shape, whether it had the property or not. -/
def setValue? (store : Store N) (path : Path) (value : Value N) : Option (Store N) :=
  match store.objects.get? path.object with
  | none => none
  | some fields =>
    match path, fields.get? path.fieldName with
    | .field _ _, some (.shape _ _) => none
    | .field object name, _ => some (store.bind object name (.scalar (.concrete value)))
    | .property object name property, some (.shape kind properties) =>
      some (store.bind object name (.shape kind (properties.insert property (.concrete value))))
    | .property _ _ _, _ => none

/-- Remembers the value of a slot whose content is symbolic. -/
def cacheValue (store : Store N) (path : Path) (value : Value N) : Store N :=
  let keep (content : Content N) : Content N :=
    match content with
    | .symbolic _ => .concrete value
    | .concrete _ => content
  ⟨store.objects.modify path.object fun fields =>
    fields.modify path.fieldName fun slot =>
      match path, slot with
      | .field _ _, .scalar content => .scalar (keep content)
      | .property _ _ property, .shape kind properties =>
        .shape kind (properties.modify property keep)
      | _, slot => slot⟩

/-- Whether `cacheValue` would write at a path. -/
def awaitsValue (store : Store N) (path : Path) : Bool :=
  match store.content? path with
  | some content => content.isSymbolic
  | none => false

/-! ## Another number type -/

def mapFloat (change : N → M) (store : Store N) : Store M :=
  ⟨store.objects.map (·.map (·.mapFloat change))⟩

/-- The same store with plain floats lifted into another number type. -/
def lift [Scalar M] (store : Store Float) : Store M := store.mapFloat Scalar.ofFloat

end Store

end DiagramEnergy

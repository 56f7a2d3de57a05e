import Ccfolio.Odb
import Ccfolio.VersionedBindings

/-! The generated persistence code of `User`: images of an object, the bindings
that point into them, and the statements executed through these. What the ODB
runtime does with a buffer or a binding is a parameter. Callbacks, the session
cache and loads that are delayed do nothing for this class. -/

namespace Ccfolio.ObjectTraits

open Utf8 StdText Odb Programs VersionedBindings

inductive Column where
  | username
  | passwordHash
  | salt
  deriving DecidableEq, Repr

def columns : List Column := [.username, .passwordHash, .salt]

def member (o : User) : Column → Bytes
  | .username => o.username
  | .passwordHash => o.passwordHash
  | .salt => o.salt

/-- A buffer in memory: one that grows may move. -/
structure Buffer where
  address : Nat
  capacity : Nat
  data : Bytes
  deriving DecidableEq, Repr

/-- The members of an image for one text: `_value`, `_size` and `_null`. -/
structure TextImage where
  value : Buffer
  size : Nat
  null : Bool
  deriving DecidableEq, Repr

structure Image where
  idValue : Int
  idNull : Bool
  text : Column → TextImage
  version : Nat

structure IdImage where
  idValue : Int
  idNull : Bool
  version : Nat
  deriving DecidableEq, Repr

/-- An entry of a binding. It points at members of an image, and into a buffer
as it was when the entry was made. -/
inductive BindEntry where
  | id
  | idOfIdImage
  | text (column : Column) (buffer capacity : Nat)
  deriving DecidableEq, Repr

inductive Value where
  | null
  | integer (i : Int)
  | text (b : Bytes)
  deriving DecidableEq, Repr

inductive StatementKind where
  | select
  | insert
  | update
  | delete
  deriving DecidableEq, Repr

/-- `object_statements`, one for each connection. A binding is kept with its own
version and the version of the image it was made of. The id binding is the tail
of the entries that an update is executed with. -/
structure Statements where
  image : Image
  idImage : IdImage
  insertImageBinding : Cached (List BindEntry)
  updateImageBinding : Cached (List BindEntry)
  selectImageBinding : Cached (List BindEntry)
  idImageBinding : Cached (List BindEntry)
  updateIdImageVersion : Nat
  selectImageTruncated : Column → Bool

/-- What is sent to the server. `query` stands for the query statement with the
clause it is given, none or one on the username. -/
inductive Command where
  | begin
  | commit
  | close
  | persist (params : List Value)
  | find (params : List Value)
  | update (params : List Value)
  | erase (params : List Value)
  | query (username : Option Bytes)
  deriving DecidableEq, Repr

/-- What comes back, or is thrown: for an insert the id it returns, unless the
row is there already; the row found; the number of rows affected. -/
abbrev Command.Reply : Command → Type
  | .begin | .commit => Except Exception Unit
  | .close => Unit
  | .persist _ => Except Exception (Option Int)
  | .find _ => Except Exception (Option User)
  | .update _ | .erase _ => Except Exception Nat
  | .query _ => Except Exception (List User)

/-- What the code calls of the ODB runtime: `set_image` and `set_value` for texts
and for integers with their `is_null`, a buffer made larger, the values sent
through a binding, a row and a returned id stored through one, and a row of a
query stored by the result it is in. -/
structure Runtime where
  setImage : TextImage → Bytes → TextImage
  setValue : TextImage → Bytes
  setIntegerImage : Int → Bool → Int → Int × Bool
  setIntegerValue : Int → Bool → Int
  capacity : Buffer → Nat → Buffer
  send : List BindEntry → Image → IdImage → List Value
  load : List BindEntry → User → Image → Image × (Column → Bool)
  loadId : List BindEntry → Int → IdImage → IdImage
  loadImage : User → Statements → Statements

abbrev Dialogue (τ : Type) := Code Command.Reply τ Exception

abbrev Gen := Dialogue Statements

def grow (rt : Runtime) (i : Image) (t : Column → Bool) : Image × Bool :=
  let text := fun c =>
    if t c then
      { i.text c with value := rt.capacity (i.text c).value (i.text c).size }
    else i.text c
  ({ i with text := text }, columns.any t)

/-- `bind` of an image. -/
def bindImage (i : Image) (sk : StatementKind) : List BindEntry :=
  (if sk ≠ .insert ∧ sk ≠ .update then [.id] else []) ++
    columns.map fun c => .text c (i.text c).value.address (i.text c).value.capacity

def bindId (_ : IdImage) : List BindEntry := [.idOfIdImage]

/-- `init` of an image: it has grown if a capacity is another than before. -/
def initImage (rt : Runtime) (i : Image) (o : User) : Image × Bool :=
  let text := fun c => rt.setImage ⟨(i.text c).value, 0, false⟩ (member o c)
  ({ i with text := text },
    columns.any fun c => (i.text c).value.capacity ≠ (text c).value.capacity)

def initObject (rt : Runtime) (i : Image) : User :=
  ⟨rt.setIntegerValue i.idValue i.idNull, rt.setValue (i.text .username),
    rt.setValue (i.text .passwordHash), rt.setValue (i.text .salt)⟩

/-- `init` of an id image. -/
def initIdImage (rt : Runtime) (i : IdImage) (id : Int) : IdImage :=
  let (idValue, idNull) := rt.setIntegerImage i.idValue false id
  { i with idValue := idValue, idNull := idNull }

def idOf (rt : Runtime) (i : IdImage) : Int := rt.setIntegerValue i.idValue i.idNull

namespace Statements

variable (rt : Runtime) (sts : Statements)

/-- `if (init(im, obj, sk)) im.version++;` -/
def initImage (o : User) : Statements :=
  let (im, grew) := ObjectTraits.initImage rt sts.image o
  { sts with image := if grew then { im with version := im.version + 1 } else im }

def bindInsert : Statements :=
  { sts with insertImageBinding :=
      sts.insertImageBinding.refresh sts.image.version (bindImage sts.image .insert) }

def bindUpdate : Statements :=
  { sts with updateImageBinding :=
      sts.updateImageBinding.refresh sts.image.version (bindImage sts.image .update) }

def bindSelect : Statements :=
  { sts with selectImageBinding :=
      sts.selectImageBinding.refresh sts.image.version (bindImage sts.image .select) }

def initId (id : Int) : Statements := { sts with idImage := initIdImage rt sts.idImage id }

def bindIdImage : Statements :=
  { sts with idImageBinding :=
      sts.idImageBinding.refresh sts.idImage.version (bindId sts.idImage) }

/-- The id of an update; `u` tells that the rest has been bound again. -/
def bindUpdateId (u : Bool) : Statements :=
  if sts.idImage.version ≠ sts.updateIdImageVersion ∨ sts.idImageBinding.version = 0 then
    let sts := { sts.bindIdImage with updateIdImageVersion := sts.idImage.version }
    if u then sts
    else
      { sts with updateImageBinding :=
          { sts.updateImageBinding with version := sts.updateImageBinding.version + 1 } }
  else sts

def fetch (row : User) : Statements :=
  let (im, truncated) := rt.load sts.selectImageBinding.value row sts.image
  { sts with image := im, selectImageTruncated := truncated }

/-- `if (grow(im, sts.select_image_truncated())) im.version++;` -/
def growImage : Statements :=
  let (im, grew) := grow rt sts.image sts.selectImageTruncated
  { sts with image := if grew then { im with version := im.version + 1 } else im }

/-- A row fetched; one that was truncated is fetched again, in larger buffers if
these are bound. -/
def fetchRow (row : User) : Statements :=
  let sts := sts.fetch rt row
  if columns.any sts.selectImageTruncated then
    let sts := sts.growImage rt
    if sts.image.version ≠ sts.selectImageBinding.source then sts.bindSelect.fetch rt row
    else sts
  else sts

end Statements

def objectAlreadyPersistent : Exception := ⟨.odb, lit "object already persistent"⟩

section Code

variable (rt : Runtime)

def persist (obj : User) : Gen User := do
  modify (·.initImage rt obj)
  modify (·.bindInsert)
  modify (·.bindIdImage)
  let sts ← get
  let inserted ← MonadExcept.ofExcept
    (← perform (.persist (rt.send sts.insertImageBinding.value sts.image sts.idImage)))
  match inserted with
  | none => throw objectAlreadyPersistent
  | some id =>
    modify fun sts => { sts with idImage := rt.loadId sts.idImageBinding.value id sts.idImage }
    let sts ← get
    pure { obj with id := idOf rt sts.idImage }

def update (obj : User) : Gen Unit := do
  modify (·.initId rt obj.id)
  modify (·.initImage rt obj)
  let sts ← get
  let u := sts.updateImageBinding.stale sts.image.version
  modify (·.bindUpdate)
  modify (·.bindUpdateId u)
  let sts ← get
  let affected ← MonadExcept.ofExcept (← perform (.update (rt.send
    (sts.updateImageBinding.value ++ sts.idImageBinding.value) sts.image sts.idImage)))
  if affected = 0 then throw notPersistent

def erase (id : Int) : Gen Unit := do
  modify (·.initId rt id)
  modify (·.bindIdImage)
  let sts ← get
  let affected ← MonadExcept.ofExcept
    (← perform (.erase (rt.send sts.idImageBinding.value sts.image sts.idImage)))
  if affected ≠ 1 then throw notPersistent

/-- `find_`: whether there is a row, which is in the image then. -/
def find_ (id : Int) : Gen Bool := do
  modify (·.initId rt id)
  modify (·.bindIdImage)
  modify (·.bindSelect)
  let sts ← get
  let found ← MonadExcept.ofExcept
    (← perform (.find (rt.send sts.idImageBinding.value sts.image sts.idImage)))
  match found with
  | none => pure false
  | some row =>
    modify (·.fetchRow rt row)
    pure true

/-- `find`, and the `load` of the database, which wants the object there. -/
def find (id : Int) : Gen User := do
  if !(← find_ rt id) then throw notPersistent
  let sts ← get
  pure (initObject rt sts.image)

/-- The loop over a result: the objects, each made of the image its row was loaded into. -/
def objects : List User → Gen (List User)
  | [] => pure []
  | row :: rest => do
      modify (rt.loadImage row)
      let sts ← get
      let obj := initObject rt sts.image
      pure (obj :: (← objects rest))

/-- `query`; what it returns are the rows of its result, not loaded yet. -/
def query (username : Option Bytes) : Gen (List User) := do
  modify (·.bindSelect)
  MonadExcept.ofExcept (← perform (.query username))

end Code

structure Operations (τ : Type) where
  persist : User → Dialogue τ User
  load : Int → Dialogue τ User
  update : User → Dialogue τ Unit
  erase : Int → Dialogue τ Unit
  selectAll : Dialogue τ (List User)
  /-- As far as the loop gets that leaves in its first turn. -/
  selectFirst : Bytes → Dialogue τ (List User)

def generated (rt : Runtime) : Operations Statements where
  persist := persist rt
  load := find rt
  update := update rt
  erase := erase rt
  selectAll := do objects rt (← query none)
  selectFirst username := do objects rt ((← query (some username)).take 1)

namespace Operations

variable {τ α : Type} (ops : Operations τ)

def commit : Dialogue τ Unit := do
  MonadExcept.ofExcept (← perform Command.commit)

def close : Dialogue τ Unit := perform Command.close

def body : (t : Tx) → Dialogue τ t.Result
  | .persist entity => do
      let stored ← ops.persist entity
      commit
      pure stored
  | .load id => do
      let entity ← ops.load id
      commit
      pure entity
  | .update entity => do
      ops.update entity
      commit
  | .erase id => do
      ops.erase id
      commit
  | .selectAll => do
      let entities ← ops.selectAll
      commit
      pure entities
  | .selectByUsername username => do
      match ← ops.selectFirst username with
      | [] => pure none
      | user :: _ =>
        commit
        pure (some user)

/-- The destructor of the transaction tells the server on every way out. -/
def inScope (x : Dialogue τ α) : Dialogue τ α := do
  let r ← tryCatch x fun e => do
    close
    throw e
  close
  pure r

def transact (t : Tx) : Dialogue τ t.Result := do
  MonadExcept.ofExcept (← perform Command.begin)
  inScope (ops.body t)

abbrev Answer := (t : Tx) × Except Exception t.Result

def answers : List Tx → Dialogue τ (List Answer)
  | [] => pure []
  | t :: rest => do
      let answer ← tryCatch (do pure (.ok (← ops.transact t))) fun e => pure (.error e)
      pure (⟨t, answer⟩ :: (← answers rest))

end Operations

end Ccfolio.ObjectTraits

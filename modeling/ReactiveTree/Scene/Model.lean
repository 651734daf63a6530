import ReactiveTree.Scene.Basic

/-!
# Models

The rows that repeaters show. A vector tells its peers about every change. It holds them
weakly: a peer that is no longer alive is dropped at the next notification.
-/

namespace ReactiveTree

variable {U X : Type}

def clampRow (i : Int) (n : Nat) : Nat := min i.toNat (n - 1)

namespace Model

/-- Is it the same model? Vectors are the same by identity, counts by value. -/
def same : Model → Model → Bool
  | .count a, .count b => a == b
  | .vector a, .vector b => a == b
  | _, _ => false

def sameOption : Option Model → Option Model → Bool
  | none, none => true
  | some a, some b => a.same b
  | _, _ => false

def rowCount (s : Scene U X) : Model → Int
  | .count n => max n.toInt 0
  | .vector m => (s.vector m).rows.length
  | .cyclic n _ => n.toInt

def rowData (s : Scene U X) (m : Model) (i : Int) : Value :=
  match m with
  | .count n => if n ≤ 0 then .void else .int (Int64.ofInt (clampRow i n.toInt.toNat))
  | .vector m =>
    let rows := (s.vector m).rows
    rows.getD (clampRow i rows.length) .void
  | .cyclic _ vs => vs.getD (i % vs.length).toNat .void

end Model

/-- A repeater is a live peer of the vector that is its current model. -/
def Peer.isAlive (s : Scene U X) (m : VectorId) : Peer → Bool
  | .repeater r =>
    let repeater := s.repeater r
    !repeater.released && Model.sameOption repeater.model (some (.vector m))
  | .user p =>
    match s.peers[p]? with
    | some peer => peer.alive
    | none => false

namespace Repeater

def markStale (r : RepeaterId) : SceneM U X Unit := do
  let repeater ← Act.ask fun s => s.repeater r
  unless repeater.released do .set repeater.flag (.bool true)

def markRow (r : RepeaterId) (row : Int) : SceneM U X Unit := do
  let n ← Act.ask fun s => (s.repeater r).staleRows.size
  if 0 ≤ row && row < n then
    Act.change fun s => s.modifyRepeater r fun x =>
      { x with staleRows := x.staleRows.change (·.setIfInBounds row.toNat true) }
    markStale r

def markRowsFrom (r : RepeaterId) (row : Int) : SceneM U X Unit := do
  Act.change fun s => s.modifyRepeater r fun x =>
    { x with staleRows := x.staleRows.change (·.mapIdx fun i stale => stale || row ≤ i) }
  markStale r

end Repeater

def Peer.tell (change : Change) : Peer → SceneM U X Unit
  | .repeater r =>
    match change with
    | .changed row => Repeater.markRow r row
    | .added index _ | .removed index _ => Repeater.markRowsFrom r index
  | .user p => do
    match ← Act.ask fun s => s.peers[p]? with
    | some peer => .perform (.peer peer.code change)
    | none => return

namespace VectorModel

def create (rows : List Value) : SceneM U X VectorId :=
  .host fun s => (s.vectors.size, { s with vectors := s.vectors.push { rows } })

def prune (m : VectorId) : SceneM U X (List Peer) :=
  .host fun s =>
    let live := (s.vector m).peers.filter (Peer.isAlive s m)
    (live, s.modifyVector m fun v => { v with peers := live })

def attach (m : VectorId) (p : Peer) : SceneM U X Unit := do
  discard <| prune m
  Act.change fun s => s.modifyVector m fun v => { v with peers := v.peers ++ [p] }

def notify (m : VectorId) (change : Change) : SceneM U X Unit := do
  (← prune m).forM (Peer.tell change)

def setRow (m : VectorId) (row : Int) (v : Value) : SceneM U X Unit := do
  let rows ← Act.ask fun s => (s.vector m).rows
  if 0 ≤ row then
    match rows[row.toNat]? with
    | none => return
    | some old =>
      unless old.same v do
        Act.change fun s => s.modifyVector m fun x => { x with rows := x.rows.set row.toNat v }
        notify m (.changed row)

def push (m : VectorId) (vs : List Value) : SceneM U X Unit := do
  unless vs.isEmpty do
    let n ← Act.ask fun s => (s.vector m).rows.length
    Act.change fun s => s.modifyVector m fun x => { x with rows := x.rows ++ vs }
    notify m (.added n vs.length)

def insert (m : VectorId) (index : Int) (v : Value) : SceneM U X Unit := do
  let n ← Act.ask fun s => (s.vector m).rows.length
  let i := min index.toNat n
  Act.change fun s => s.modifyVector m fun x =>
    { x with rows := x.rows.take i ++ v :: x.rows.drop i }
  notify m (.added i 1)

def remove (m : VectorId) (index : Int) : SceneM U X Unit := do
  let n ← Act.ask fun s => (s.vector m).rows.length
  if 0 ≤ index && index < n then
    Act.change fun s => s.modifyVector m fun x => { x with rows := x.rows.eraseIdx index.toNat }
    notify m (.removed index 1)

end VectorModel

namespace Model

def setRow (m : Model) (row : Int) (v : Value) : SceneM U X Unit :=
  match m with
  | .vector m => VectorModel.setRow m row v
  | _ => pure ()

def attach (m : Model) (p : Peer) : SceneM U X Unit :=
  match m with
  | .vector m => VectorModel.attach m p
  | _ => pure ()

end Model

end ReactiveTree

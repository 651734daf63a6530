import ReactiveTree.Proofs.Cell.Regime
import ReactiveTree.Proofs.Value.Fits
import ReactiveTree.Scene.Meaning

/-!
# Composed programs

Much of what a scene does is put together from a few operations. `Act.Composed` says of a
program that it is built from given ones, reads of the host and of the store, messages and
panics. What the given programs keep, it keeps (`Regime.Runs.composed`), so a property of
runs is shown of these operations only, and the programs over windows, items and actions
follow.
-/

namespace ReactiveTree

variable {S : Type} {K : Type → Type} {α β γ U X : Type}

abbrev SceneTale (U X : Type) := Tale (Scene U X) (Code U)

abbrev SceneNested (U X : Type) := Nested (Scene U X × Chronicle (Code U)) (Code U)

abbrev Host.told (host : Host U X) (depth : Nat) :
    SceneNested U X := Act.toldTo (Code.meaning host) depth

/-- A host with this user code. It has no models, and vectors tell it nothing. -/
def Host.ofValue (value : U → SceneM U X Value) : Host U X where
  value u _ _ := value u
  model _ _ := pure .none
  peer _ _ := pure ()

/-- Programs built from the primitive ones. -/
inductive Act.Composed (prim : ⦃α : Type⦄ → Act S K α → Prop) : {α : Type} → Act S K α → Prop where
  | prim {α : Type} {act : Act S K α} (h : prim act) : Composed prim act
  | pure {α : Type} (a : α) : Composed prim (.pure a)
  | bind {α β : Type} {x : Act S K α} {f : α → Act S K β} (hx : Composed prim x)
      (hf : ∀ a, Composed prim (f a)) : Composed prim (.bind x f)
  | ask {α : Type} (f : S → α) : Composed prim (Act.ask f)
  | view {α : Type} (f : Store K → α) : Composed prim (.view f)
  | record (e : Entry) : Composed prim (.record e)
  | panic {α : Type} (text : String) : Composed prim (.panic (α := α) text)
  | untracked {α : Type} {body : Act S K α} (h : Composed prim body) :
      Composed prim (.untracked body)

theorem Act.Composed.asks {prim : ⦃α : Type⦄ → Act S K α → Prop} {f : S → β} {k : β → Act S K α}
    (h : ∀ a, Act.Composed prim (k a)) : Act.Composed prim (.bind (Act.ask f) k) := .bind (.ask _) h

theorem Act.Composed.mono {p q : ⦃α : Type⦄ → Act S K α → Prop} {act : Act S K α}
    (h : Act.Composed p act) (hpq : ∀ ⦃α : Type⦄ (act : Act S K α), p act → q act) :
    Act.Composed q act := by
  induction h with
  | prim h => exact .prim (hpq _ h)
  | pure a => exact .pure a
  | bind _ _ ihx ihf => exact .bind ihx ihf
  | ask f => exact .ask f
  | view f => exact .view f
  | record e => exact .record e
  | panic text => exact .panic text
  | untracked _ ih => exact .untracked ih

theorem Regime.Runs.composed {R : Regime S K γ} [hR : R.Sober]
    {nested : Nested (S × Chronicle K) K} {prim : ⦃α : Type⦄ → Act S K α → Prop}
    (hpanic : ∀ text, R.stops (.panic text))
    (hprim : ∀ {α : Type} {act : Act S K α} {g w}, prim act → R.holds g w → R.Keeps nested g w act)
    {act : Act S K α} (h : Act.Composed prim act) {g : γ} {w : Tale S K} (hw : R.holds g w) :
    R.Keeps nested g w act := by
  induction h generalizing g w with
  | prim h => exact hprim h hw
  | pure a => exact .ret hw trivial
  | bind _ _ ihx ihf => exact .seq (ihx hw) fun g' w' a _ hw' _ => ihf a hw'
  | ask f => exact .host hw fun hn => ⟨g, hR.refl .., hn, trivial⟩
  | view f => exact .view hw trivial
  | record e => exact .record e hw
  | panic text => exact .panic hw (hpanic text)
  | untracked _ ih => exact .untracked hw (fun _ _ hw' => ih hw') stable_true

namespace Act.Composed

variable {prim : ⦃α : Type⦄ → SceneM U X α → Prop}

theorem log (line : String) : Composed prim (Act.log line) := .record _

theorem peek {c : CellId} (h : prim (.get c)) : Composed prim (Act.peek c) := .untracked (.prim h)

theorem discard {act : SceneM U X α} (h : Composed prim act) : Composed prim (discard act) :=
  .bind h fun _ => .pure _

theorem forM {xs : List α} {f : α → SceneM U X PUnit} (h : ∀ x ∈ xs, Composed prim (f x)) :
    Composed prim (xs.forM f) := by
  induction xs with
  | nil => exact .pure _
  | cons x xs ih =>
    exact .bind (h x (by simp)) fun _ => ih fun y hy => h y (by simp [hy])

theorem mapM {xs : List α} {f : α → SceneM U X β} (h : ∀ x ∈ xs, Composed prim (f x)) :
    Composed prim (xs.mapM f) := by
  suffices hloop : ∀ acc, Composed prim (List.mapM.loop f xs acc) from hloop []
  induction xs with
  | nil => exact fun acc => .pure _
  | cons x xs ih =>
    exact fun acc => .bind (h x (by simp)) fun y => ih (fun y hy => h y (by simp [hy])) _

theorem ite {p : Prop} [Decidable p] {x y : SceneM U X α} (hx : Composed prim x)
    (hy : Composed prim y) : Composed prim (if p then x else y) := by
  split
  · exact hx
  · exact hy

/-! ## Tying -/

theorem resolve (r : Reference) (c : ComponentId) : Composed prim (SceneM.resolve r c) := by
  refine .asks fun component => ?_
  cases component with
  | none => exact .panic _
  | some component =>
    refine .bind (.asks fun cell => ?_) fun cell => .pure _
    cases cell with
    | ok cell => exact .pure _
    | error f => exact .panic _

theorem tieBinding (c : ComponentId) (t : BindingTemplate U) :
    Composed prim (Component.tieBinding c t) := by
  cases t with
  | user u => exact .pure _
  | fetch source op path => exact .bind (resolve source c) fun place => .pure _

theorem tieAction (c : ComponentId) (t : ActionTemplate) :
    Composed prim (Component.tieAction c t) := by
  cases t with
  | increment r path => exact .bind (resolve r c) fun place => .pure _
  | toggle r => exact .bind (resolve r c) fun place => .pure _
  | set r v => exact .bind (resolve r c) fun place => .pure _
  | emit outer name path =>
    refine .asks fun target => ?_
    cases target with
    | some target => exact .pure _
    | none => exact .panic _

theorem tieHandler (c : ComponentId) (t : HandlerTemplate U) :
    Composed prim (Component.tieHandler c t) := by
  cases t with
  | absent => exact .pure _
  | user u => exact .pure _
  | actions steps => exact .bind (mapM fun step _ => tieAction c step) fun steps => .pure _

theorem tieModel (hvector : ∀ vs, prim (VectorModel.create vs)) (c : ComponentId)
    (t : ModelTemplate U) : Composed prim (Component.tieModel c t) := by
  cases t with
  | user u => exact .pure _
  | count n => exact .pure _
  | rows vs => exact .bind (.prim (hvector vs)) fun m => .pure _
  | countOf r => exact .bind (resolve r c) fun place => .pure _

/-! ## Reading -/

theorem item_spot? (it : ItemRef) (name : String) : Composed prim (Item.spot? it name) := .ask _

theorem item_cell? (it : ItemRef) (name : String) : Composed prim (Item.cell? it name) := by
  refine .bind (item_spot? it name) fun spot => ?_
  cases spot with
  | none => exact .pure _
  | some spot => exact .ask _

section Reading

variable (hget : ∀ c, prim (.get c))
include hget

theorem item_get (it : ItemRef) (name : String) : Composed prim (Item.get it name) := by
  refine .bind (item_cell? it name) fun cell => ?_
  cases cell with
  | none => exact .pure _
  | some cell => exact .prim (hget cell)

theorem component_get (c : ComponentId) (name : String) : Composed prim (Component.get c name) := by
  refine .asks fun destroyed => .ite (.pure _) (.asks fun cell => ?_)
  cases cell with
  | error f => exact .pure _
  | ok cell => exact .bind (.prim (hget cell)) fun v => .pure _

theorem isEnabled (it : ItemRef) : Composed prim (Item.isEnabled it) := by
  refine .bind (item_cell? it "enabled") fun cell => ?_
  cases cell with
  | none => exact .pure _
  | some cell => exact .bind (.prim (hget cell)) fun v => .pure _

theorem geometry (it : ItemRef) : Composed prim (Item.geometry it) :=
  .bind (item_get hget it "x") fun _ => .bind (item_get hget it "y") fun _ =>
    .bind (item_get hget it "width") fun _ => .bind (item_get hget it "height") fun _ => .pure _

theorem place (around : List ItemRef) (r : Rect) : Composed prim (Item.place around r) := by
  induction around generalizing r with
  | nil => exact .pure _
  | cons p rest ih =>
    refine .bind (geometry hget p) fun g => .asks fun kind => .ite ?_ (ih _)
    exact .bind (item_get hget p "viewport_x") fun _ =>
      .bind (item_get hget p "viewport_y") fun _ => ih _

theorem absolute (it : ItemRef) : Composed prim (Item.absolute it) :=
  .bind (geometry hget it) fun g => .asks fun around => place hget around g

theorem isClipped (x y : Float) (around : List ItemRef) :
    Composed prim (Window.isClipped x y around) := by
  induction around with
  | nil => exact .pure _
  | cons p rest ih =>
    exact .asks fun clips =>
      .ite (.bind (absolute hget p) fun r => .ite ih (.pure _)) ih

end Reading

/-! ## Writing and calling -/

section Writing

variable (hwrite : ∀ spot v, prim (Component.write spot v))
include hwrite

theorem component_set (c : ComponentId) (name : String) (v : Value) :
    Composed prim (Component.set c name v) := by
  refine .asks fun destroyed => .ite (.pure _) (.asks fun spot => ?_)
  cases spot with
  | error f => exact .pure _
  | ok spot => exact .prim (hwrite spot v)

theorem item_set (it : ItemRef) (name : String) (v : Value) :
    Composed prim (Item.set it name v) := by
  refine .bind (item_spot? it name) fun spot => ?_
  cases spot with
  | none => exact .asks fun id => .pure _
  | some spot => exact .prim (hwrite spot v)

theorem setIfPresent (it : ItemRef) (name : String) (v : Value) :
    Composed prim (Item.setIfPresent it name v) := by
  refine .bind (item_spot? it name) fun spot => ?_
  cases spot with
  | none => exact .pure _
  | some spot =>
    refine .bind (.prim (hwrite spot v)) fun result => ?_
    cases result with
    | ok u => exact .pure _
    | error f => exact .asks fun id => log _

theorem place_set (p : Place) (v : Value) : Composed prim (p.set v) := by
  unfold Place.set
  extract_lets r finish
  have hfinish (result : Except Fault Unit) : Composed prim (finish result) := by
    cases result with
    | ok u => exact .pure _
    | error f => exact log _
  refine .ite (.bind (component_set hwrite _ _ v) hfinish) (.asks fun it => ?_)
  cases it with
  | ok it => exact .bind (item_set hwrite it _ v) hfinish
  | error f => exact .bind (.pure _) hfinish

theorem setMouse (it : ItemRef) (x y : Float) : Composed prim (Window.setMouse it x y) :=
  .bind (setIfPresent hwrite it ..) fun _ => setIfPresent hwrite it ..

theorem withdraw (it : Option ItemRef) (flag : String) :
    Composed prim (Window.withdraw it flag) := by
  cases it with
  | none => exact .pure _
  | some it => exact .asks fun destroyed => .ite (.pure _) (setIfPresent hwrite it flag _)

end Writing

section Calling

variable (hhandle : ∀ h args, prim (.perform (.handle h args)))
include hhandle

theorem callback_invoke (cb : Callback) (args : List Value) : Composed prim (cb.invoke args) := by
  unfold Callback.invoke
  cases cb.decl.check args with
  | error e => exact .pure _
  | ok args =>
    refine .bind (.asks fun handler => ?_) fun result => .pure _
    cases handler with
    | none => exact .pure _
    | some h => exact .bind (.untracked (.prim (hhandle h args))) fun v => .pure _

theorem component_invoke (c : ComponentId) (name : String) (args : List Value) :
    Composed prim (Component.invoke c name args) := by
  refine .asks fun destroyed => .ite (.pure _) (.asks fun cb => ?_)
  cases cb with
  | error f => exact .pure _
  | ok cb => exact callback_invoke hhandle cb args

theorem item_emit (it : ItemRef) (name : String) (args : List Value) :
    Composed prim (Item.emit it name args) := by
  refine .asks fun cb => ?_
  cases cb with
  | none => exact .asks fun id => .pure _
  | some cb => exact callback_invoke hhandle cb args

end Calling

theorem action_perform (hget : ∀ c, prim (.get c))
    (hwrite : ∀ spot v, prim (Component.write spot v))
      (hhandle : ∀ h args, prim (.perform (.handle h args))) (a : Action) :
          Composed prim a.perform := by
  cases a with
  | increment p path =>
    refine .bind (.prim (hget p.cell)) fun v => ?_
    cases v.arith .add (.int 1) with
    | ok v => exact place_set hwrite p v
    | error e => exact log _
  | toggle p => exact .bind (.prim (hget p.cell)) fun v => place_set hwrite p _
  | set p v => exact place_set hwrite p v
  | emit c name path =>
    refine .bind (component_invoke hhandle c name []) fun result => ?_
    cases result with
    | ok v => exact .pure _
    | error f => exact log _

/-! ## Walking -/

section Walking

variable (hupdate : ∀ r, prim (Repeater.ensureUpdated r)) {f : Visitor U X β}
  (hf : ∀ it b, Composed prim (f it b))

include hf in
theorem visitAll (items : List ItemRef) (b : β) : Composed prim (Component.visitAll f items b) := by
  induction items generalizing b with
  | nil => exact .pure _
  | cons it rest ih => exact .bind (hf it b) fun r => .ite (ih _) (.pure _)

theorem walkShelf {down : Visitor U X β} (hdown : ∀ it b, Composed prim (down it b))
    (r : RepeaterId) (shelf : Nat) (rows : List Nat) (b : β) :
    Composed prim (Component.walkShelf down r shelf rows b) := by
  induction rows generalizing b with
  | nil => exact .pure _
  | cons i rest ih =>
    refine .asks fun h => ?_
    cases h with
    | none => exact .panic _
    | some h => exact .asks fun c => .bind (hdown _ b) fun r => .ite (ih _) (.pure _)

include hupdate

theorem walkRows {down : Visitor U X β} (hdown : ∀ it b, Composed prim (down it b))
    (repeaters : List RepeaterId) (b : β) :
    Composed prim (Component.walkRows down repeaters b) := by
  induction repeaters generalizing b with
  | nil => exact .pure _
  | cons r rest ih =>
    exact .bind (.prim (hupdate r)) fun _ => .asks fun instances =>
      .bind (walkShelf hdown r _ _ b) fun result => .ite (ih _) (.pure _)

include hf

theorem walkTo (limit : Nat) (it : ItemRef) (b : β) :
    Composed prim (Component.walkTo f limit it b) := by
  induction limit generalizing it b with
  | zero => exact .pure _
  | succ limit ih =>
    exact .bind (hf it b) fun r => .ite (.asks fun item =>
      .bind (visitAll ih ..) fun r => .ite (walkRows hupdate ih ..) (.pure _)) (.pure _)

theorem walk (c : ComponentId) (b : β) : Composed prim (Component.walk c f b) :=
  .asks fun limit => walkTo hupdate hf limit _ b

theorem visit (c : ComponentId) (order : Order) (b : β) :
    Composed prim (Component.visit c order f b) := by
  refine .asks fun destroyed => .ite (.pure _) ?_
  cases order with
  | preOrder => exact walk hupdate hf c b
  | frontToBack =>
    exact .bind (walk hupdate (fun it all => .pure _) c []) fun r => visitAll hf _ b

end Walking

/-! ## Windows -/

section Windows

variable (hget : ∀ c, prim (.get c)) (hwrite : ∀ spot v, prim (Component.write spot v))
  (hhandle : ∀ h args, prim (.perform (.handle h args)))
  (hupdate : ∀ r, prim (Repeater.ensureUpdated r)) (hwindow : ∀ c f, prim (Window.modify c f))

include hget hupdate in
theorem focusables (c : ComponentId) : Composed prim (Window.focusables c) := by
  refine .bind (visit hupdate (fun it all => ?_) c .preOrder []) fun r => .pure _
  exact .asks fun focusable =>
    .ite (.bind (isEnabled hget it) fun enabled => .ite (.pure _) (.pure _)) (.pure _)

include hget hupdate in
theorem itemAt (c : ComponentId) (x y : Float) : Composed prim (Window.itemAt c x y) := by
  refine .asks fun top => .bind (visit hupdate (fun it hit => ?_) _ ..) fun r => .pure _
  refine .asks fun pointer => .ite ?_ (.pure _)
  refine .bind (isEnabled hget it) fun enabled => .ite ?_ (.pure _)
  refine .bind (absolute hget it) fun r => .ite ?_ (.pure _)
  exact .asks fun around => .bind (isClipped hget x y around) fun clipped =>
    .ite (.pure _) (.pure _)

theorem focusItem (c : ComponentId) : Composed prim (Window.focusItem c) := by
  refine .asks fun window => ?_
  cases window.focus with
  | none => exact .pure _
  | some it => exact .asks fun destroyed => .pure _

include hwrite hhandle in
theorem edit (it : ItemRef) (t : Text) : Composed prim (Window.edit it t) :=
  .bind (discard (item_set hwrite it ..)) fun _ => discard (item_emit hhandle it ..)

include hget hwrite hhandle in
theorem keyTo (it : ItemRef) (key : Window.Key) : Composed prim (Window.keyTo it key) := by
  refine .bind (item_get hget it "text") fun old => ?_
  cases key with
  | text t => exact .ite (.pure _) (.bind (edit hwrite hhandle it _) fun _ => .pure _)
  | backspace =>
    exact .ite (.pure _) (.bind (edit hwrite hhandle it _) fun _ => .pure _)
  | «return» => exact .bind (discard (item_emit hhandle it ..)) fun _ => .pure _
  | tab => exact .pure _
  | escape => exact .pure _
  | other => exact .pure _

include hwrite hwindow

theorem setFocus (c : ComponentId) (it : Option ItemRef) :
    Composed prim (Window.setFocus c it) := by
  unfold Window.setFocus
  extract_lets finish move
  have hmove (accepted : Bool) : Composed prim (move accepted) := by
    refine .ite (.pure _) (.asks fun window => .ite (.pure _) ?_)
    refine .bind (withdraw hwrite ..) fun _ => .bind (.prim (hwindow c _)) fun _ => ?_
    cases it with
    | none => exact .pure _
    | some it => exact .bind (setIfPresent hwrite it ..) fun _ => .pure _
  cases it with
  | none => exact .bind (.pure _) hmove
  | some it => exact .bind (.ask _) hmove

theorem setHover (c : ComponentId) (it : Option ItemRef) :
    Composed prim (Window.setHover c it) := by
  refine .asks fun window => .ite (.pure _) ?_
  refine .bind (withdraw hwrite ..) fun _ => .bind (.prim (hwindow c _)) fun _ => ?_
  cases it with
  | none => exact .pure _
  | some it => exact setIfPresent hwrite it ..

theorem activate (c : ComponentId) : Composed prim (Window.activate c) := by
  refine .asks fun top => .asks fun window => .ite (.pure _) ?_
  refine .bind (.prim (hwindow top _)) fun _ => .asks fun first => ?_
  cases first with
  | none => exact .pure _
  | some n => exact discard (setFocus hwrite hwindow top _)

theorem pointerExit (c : ComponentId) : Composed prim (Window.pointerExit c) := by
  refine .asks fun window => ?_
  cases window.grabber with
  | none => exact setHover hwrite hwindow c none
  | some g =>
    exact .bind (setIfPresent hwrite g ..) fun _ => .bind (.prim (hwindow c _)) fun _ =>
      setHover hwrite hwindow c none

include hget

include hupdate in
theorem focusNext (c : ComponentId) : Composed prim (Window.focusNext c) := by
  refine .asks fun top => .bind (focusables hget hupdate top) fun all =>
    .asks fun window => ?_
  cases Window.next? window.focus all with
  | none => exact .pure _
  | some it => exact setFocus hwrite hwindow top _

include hhandle

theorem pointerGrabbed (c : ComponentId) (g : ItemRef) (kind : Window.PointerKind) (x y : Float) :
    Composed prim (Window.pointerGrabbed c g kind x y) := by
  refine .bind (absolute hget g) fun r => .bind (setMouse hwrite g ..) fun _ => .ite ?_ (.pure _)
  refine .bind (.prim (hwindow c _)) fun _ => .bind (setIfPresent hwrite g ..) fun _ => ?_
  exact .asks fun cb => .ite (discard (item_emit hhandle g ..)) (.pure _)

include hupdate

theorem pointer (c : ComponentId) (kind : Window.PointerKind) (x y : Float) :
    Composed prim (Window.pointer c kind x y) := by
  refine .asks fun top => .asks fun window => ?_
  extract_lets finish route
  have hroute (u : Unit) : Composed prim (route u) := by
    refine .ite (.bind (pointerExit hwrite hwindow top) fun _ => .pure _)
      (.asks fun window => ?_)
    cases window.grabber with
    | some g =>
      exact .bind (pointerGrabbed hget hwrite hhandle hwindow top g kind x y) fun _ => .pure _
    | none =>
      refine .bind (itemAt hget hupdate top x y) fun target =>
        .bind (setHover hwrite hwindow top target) fun _ => ?_
      cases target with
      | none => exact .pure _
      | some it =>
        refine .bind (absolute hget it) fun r => .bind (setMouse hwrite it ..) fun _ =>
          .ite ?_ (.pure _)
        refine .bind (.prim (hwindow top _)) fun _ => .bind (setIfPresent hwrite it ..) fun _ =>
          .asks fun focusable => .ite ?_ (.pure _)
        exact .bind (discard (setFocus hwrite hwindow top _)) fun _ => .pure _
  cases window.grabber with
  | none => exact hroute ()
  | some g =>
    exact .asks fun destroyed => .ite (.bind (.prim (hwindow top _)) hroute) (hroute ())

theorem key (c : ComponentId) (key : Window.Key) : Composed prim (Window.key c key) := by
  refine .asks fun top => ?_
  cases key with
  | tab => exact focusNext hget hwrite hupdate hwindow top
  | escape =>
    exact .bind (focusItem top) fun it => .ite (.pure _) (setFocus hwrite hwindow top none)
  | _ =>
    refine .bind (focusItem top) fun it => ?_
    cases it with
    | none => exact .pure _
    | some it =>
      exact .asks fun keyboard => .ite (.pure _) (.bind (isEnabled hget it) fun enabled =>
        .ite (.pure _) (keyTo hget hwrite hhandle it _))

end Windows

/-! ## Models -/

section Models

variable
  (hvectors : ∀ {α : Type} (f : Scene U X → α × Scene U X),
    (∀ s, ∃ vectors, (f s).2 = { s with vectors }) → prim (.host f))
  (hrows : ∀ (r : RepeaterId) (f : Array Bool → Array Bool), prim (Act.change fun s =>
    s.modifyRepeater r fun x => { x with staleRows := x.staleRows.change f }))
  (hstale : ∀ r, prim (Repeater.markStale r))
  (hpeer : ∀ u change, prim (.perform (.peer u change)))

include hvectors in
theorem prune (m : VectorId) : Composed prim (VectorModel.prune m) :=
  .prim (hvectors _ fun _ => ⟨_, rfl⟩)

include hvectors in
theorem attach (m : VectorId) (p : Peer) : Composed prim (VectorModel.attach m p) :=
  .bind (discard (prune hvectors m)) fun _ => .prim (hvectors _ fun _ => ⟨_, rfl⟩)

include hrows hstale hpeer in
theorem tell (change : Change) (p : Peer) : Composed prim (p.tell change) := by
  have hfrom (r : RepeaterId) (row : Int) : Composed prim (Repeater.markRowsFrom r row) :=
    .bind (.prim (hrows r _)) fun _ => .prim (hstale r)
  cases p with
  | repeater r =>
    cases change with
    | changed row =>
      exact .asks fun n =>
        .ite (.bind (.prim (hrows r _)) fun _ => .prim (hstale r)) (.pure _)
    | added index _ => exact hfrom r index
    | removed index _ => exact hfrom r index
  | user p =>
    refine .asks fun peer => ?_
    cases peer with
    | none => exact .pure _
    | some peer => exact .prim (hpeer peer.code change)

include hvectors hrows hstale hpeer

theorem notify (m : VectorId) (change : Change) : Composed prim (VectorModel.notify m change) :=
  .bind (prune hvectors m) fun _ => forM fun p _ => tell hrows hstale hpeer change p

theorem setRow (m : VectorId) (row : Int) (v : Value) :
    Composed prim (VectorModel.setRow m row v) := by
  refine .asks fun rows => .ite ?_ (.pure _)
  cases rows[row.toNat]? with
  | none => exact .pure _
  | some old =>
    exact .ite (.pure _) (.bind (.prim (hvectors _ fun _ => ⟨_, rfl⟩)) fun _ =>
      notify hvectors hrows hstale hpeer m _)

theorem push (m : VectorId) (vs : List Value) : Composed prim (VectorModel.push m vs) :=
  .ite (.pure _) (.asks fun _ => .bind (.prim (hvectors _ fun _ => ⟨_, rfl⟩)) fun _ =>
    notify hvectors hrows hstale hpeer m _)

theorem insert (m : VectorId) (index : Int) (v : Value) :
    Composed prim (VectorModel.insert m index v) :=
  .asks fun _ => .bind (.prim (hvectors _ fun _ => ⟨_, rfl⟩)) fun _ =>
    notify hvectors hrows hstale hpeer m _

theorem remove (m : VectorId) (index : Int) : Composed prim (VectorModel.remove m index) :=
  .asks fun _ => .ite (.bind (.prim (hvectors _ fun _ => ⟨_, rfl⟩)) fun _ =>
    notify hvectors hrows hstale hpeer m _) (.pure _)

end Models

end Act.Composed

/-! ## Code -/

def Code.Returns : {α : Type} → Code U α → α → Prop
  | _, .coerced _ k _, v => v.Fits k
  | _, _, _ => True

/-- Code runs as the programs do that it is made of. `C` tells which code there is. -/
theorem Regime.Runs.meaning {R : Regime (Scene U X) (Code U) γ} [hR : R.Sober]
    {nested : SceneNested U X} {g : γ} {w : SceneTale U X}
    {host : Host U X} {prim : ⦃α : Type⦄ → SceneM U X α → Prop} {C : {α : Type} → Code U α → Prop}
    (hvalue : ∀ u self args, Act.Composed prim (host.value u self args))
    (hmodel : ∀ u self, Act.Composed prim (host.model u self))
    (hpeer : ∀ u change, Act.Composed prim (host.peer u change))
    (huse : ∀ {α : Type} {act : SceneM U X α}, Act.Composed prim act → R.Keeps nested g w act)
    (hget : ∀ c, R.Keeps nested g w (.get c))
    (hretarget : ∀ a, C (.retarget a) → R.Keeps nested g w (Transition.retarget a))
    (hremodel : ∀ r, C (.remodel r) → R.Keeps nested g w (Repeater.markStale r))
    (hactions : ∀ {steps args}, C (.handle (.actions steps) args) →
      R.Keeps nested g w (steps.forM Action.perform))
    (hbody : ∀ {name kind body}, C (.coerced name kind body) → C body)
    {α : Type} (code : Code U α) (hcode : C code) :
    R.Runs nested g w (code.meaning host) fun _ _ a => code.Returns a := by
  have hlogged : ∀ {β : Type} {g' w'} (line : String) {b : β} {P : β → Prop}, R.holds g' w' → P b →
      R.Runs nested g' w' (do Act.log line; return b) fun _ _ b => P b := fun line _ _ hw' hb =>
    .seq (.record _ hw') fun _ _ _ _ hw'' _ => .ret hw'' hb
  induction code with
  | retarget a => exact hretarget a hcode
  | remodel r => exact hremodel r hcode
  | value u self => exact huse (hvalue u self [])
  | fetch cell op path =>
    refine .seq (hget cell) fun _ _ v _ hw' _ => ?_
    cases op with
    | none => exact .ret hw' trivial
    | some op =>
      dsimp only
      split
      · exact .ret hw' trivial
      · exact hlogged _ hw' trivial
  | coerced name kind body ih =>
    refine .seq (ih (hbody hcode)) fun _ _ v _ hw' _ => ?_
    cases hv : v.coerceTo kind with
    | ok v => exact .ret hw' (Value.coerceTo_fits hv)
    | error e => exact hlogged _ hw' (Value.zero_fits kind)
  | handle h args =>
    cases h with
    | user u self => exact huse (hvalue u self args)
    | actions steps =>
      exact .seq_ret (hactions hcode)
  | effect u self => exact huse (.discard (hvalue u self []))
  | peer u change => exact huse (hpeer u change)
  | model u self => exact huse (hmodel u self)
  | constant m => exact huse (.pure _)
  | countOf cell => exact .seq (hget cell) fun _ _ v _ hw' _ => .ret hw' trivial

/-! ## The clock -/

/-- What a regime has to say of the parts of a tick. It may know something of the transitions in the
clock's list, which stays true. -/
structure Regime.Ticks (R : Regime (Scene U X) (Code U) γ)
    (nested : Nested (Scene U X × Chronicle (Code U)) (Code U))
    (known : Scene U X → TransitionId → Prop) : Prop where
  sober : R.Sober
  later : ∀ {g w g' w' a}, R.le g w g' w' → known w.host.1 a → known w'.host.1 a
  listed : ∀ {g w a}, R.holds g w → a ∈ w.host.1.clock.running → known w.host.1 a
  step : ∀ {g w a} now, R.holds g w → known w.host.1 a →
    R.Runs nested g w (Transition.step a now) fun _ _ _ => True
  dismiss : ∀ {g w} a, R.holds g w →
    R.holds g (w.withHost (w.host.1.modifyTransition a fun t => { t with queued := false })) ∧
    R.le g w g (w.withHost (w.host.1.modifyTransition a fun t => { t with queued := false }))
  setList : ∀ {g w running}, R.holds g w → (∀ a ∈ running, known w.host.1 a) →
    R.holds g (w.withHost { w.host.1 with clock := { w.host.1.clock with running } }) ∧
    R.le g w g (w.withHost { w.host.1 with clock := { w.host.1.clock with running } })
  setTicking : ∀ {g w} ticking, R.holds g w →
    R.holds g (w.withHost { w.host.1 with clock := { w.host.1.clock with ticking } }) ∧
    R.le g w g (w.withHost { w.host.1 with clock := { w.host.1.clock with ticking } })
  setTime : ∀ {g w} (now : Int64), R.holds g w →
    R.Runs nested g w (.set w.host.1.clock.cell (.duration now)) fun _ _ _ => True
  peek : ∀ {g w} c, R.holds g w → R.Runs nested g w (Act.peek c) fun _ _ _ => True

namespace Regime.Ticks

variable {R : Regime (Scene U X) (Code U) γ} {nested : SceneNested U X}
  {known : Scene U X → TransitionId → Prop} {g : γ} {w : SceneTale U X}

theorem stepAll (h : R.Ticks nested known) (now : Int64) (as : List TransitionId) (hw : R.holds g w)
    (has : ∀ a ∈ as, known w.host.1 a) :
    R.Runs nested g w (Transition.stepAll now as) fun _ w' kept => ∀ a ∈ kept,
      known w'.host.1 a := by
  have hR := h.sober
  induction as generalizing g w with
  | nil => exact .ret hw nofun
  | cons a rest ih =>
    obtain ⟨ha, hrest⟩ := List.forall_mem_cons.1 has
    have hfinish : ∀ {g' w'} (finished : Bool), R.le g w g' w' → R.holds g' w' →
        R.Runs nested g' w' (if finished = true then do
            Transition.modify a fun t => { t with queued := false }
            Transition.stepAll now rest
          else do
            let kept ← Transition.stepAll now rest
            return a :: kept) fun _ w'' kept => ∀ b ∈ kept, known w''.host.1 b := by
      intro g' w' finished hle hw'
      split
      · have hn := hR.note .control trivial hw'
        exact .change_then hw' (h.dismiss a) fun hs => ih hs fun b hb =>
          h.later (hR.trans hle (hR.trans hn.2 (h.dismiss a hn.1).2)) (hrest b hb)
      · refine .seq (ih hw' fun b hb => h.later hle (hrest b hb))
          fun g1 w1 kept hle1 hw1 hkept => .ret hw1 (List.forall_mem_cons.2 ⟨?_, hkept⟩)
        exact (h.later (hR.trans hle hle1) ha : known w1.host.1 a)
    refine .seq (P := fun _ _ _ => True) ?_ fun g1 w1 alive hle1 hw1 _ => ?_
    · refine .ask hw fun hn => ?_
      split
      · exact .ret hn trivial
      · exact .view_then hn fun hn => .ret hn trivial
    · split
      · exact .seq (h.step now hw1 (h.later hle1 ha)) fun g2 w2 finished hle2 hw2 _ =>
          hfinish finished (hR.trans hle1 hle2) hw2
      · exact .pure_then hw1 fun hn =>
          hfinish true (hR.trans hle1 (hR.note .control trivial hw1).2) hn

theorem tick (h : R.Ticks nested known) (now : Int64) (hw : R.holds g w) :
    R.Keeps nested g w (Clock.tick now) := by
  have hR := h.sober
  refine .ask hw fun hn => .seq (h.setTime now hn) fun g1 w1 _ _ hw1 _ => ?_
  refine .host_then hw1 g1 (fun hn => h.setList hn nofun) fun hs => ?_
  have hn := hR.note .control trivial hw1
  refine .seq
    (h.stepAll now _ hs fun a ha => h.later
      (hR.trans hn.2 (h.setList hn.1 (List.forall_mem_nil _)).2)
        (h.listed hw1 ha)) fun g2 w2 kept _ hw2 hkept => .change hw2 fun hn => h.setList hn
          fun a ha => ?_
  exact (List.mem_append.1 ha).elim (hkept a) (h.listed hw2)

theorem moveTo (h : R.Ticks nested known) (now : Int64) (hw : R.holds g w) :
    R.Keeps nested g w (Clock.moveTo now) := by
  have hR := h.sober
  have htime : ∀ {g' w'}, R.holds g' w' → R.Keeps nested g' w' Clock.time :=
    fun hw' => .ask hw' fun hn => .seq_ret (h.peek _ hn)
  have hrun : ∀ {g' w'} (now : Int64), R.holds g' w' → R.Runs nested g' w' (do
      Act.change fun s => { s with clock := { s.clock with ticking := true } }
      .ensure (Clock.tick now) fun s => { s with clock := { s.clock with ticking := false } })
      fun _ _ _ => True := by
    intro g' w' now hw'
    refine .change_then hw' (fun hn => h.setTicking true hn) fun hs => ?_
    exact .ensure hs (fun w1 _ hw1 => h.tick now hw1) stable_true
      fun _ _ _ hw2 => h.setTicking false hw2
  refine .ask hw fun hn => ?_
  split
  · exact .record _ hn
  · refine .seq (htime hn) fun g1 w1 current _ hw1 _ => ?_
    split
    · exact .seq (htime hw1) fun g2 w2 now _ hw2 _ => hrun now hw2
    · exact .pure_then hw1 fun hn => hrun now hn

end Regime.Ticks

/-! ## The start -/

/-- A world at the start, with nothing told. -/
def Tale.start (user : X) (reports : Bool) : Tale (Scene U X) (Code U) :=
  ⟨(World.start user reports).store, (World.start user reports).host, []⟩

theorem path_start (user : X) (reports : Bool) :
    Path ⟨{ reports }, [], none⟩ ⟨(World.start (U := U) user reports).store, [], none⟩ :=
  .single (.add (.value ..))

end ReactiveTree

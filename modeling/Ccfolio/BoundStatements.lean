import Ccfolio.ObjectTraits

/-! The bindings of the generated code are current whenever a statement is
executed: what is sent is what the object holds, what is loaded is what the row
holds, and the code answers as code that binds anew each time. -/

namespace Ccfolio.BoundStatements

open Utf8 StdText Odb Programs VersionedBindings VersionedBindings.Cached ObjectTraits

/-- The entry points where the image is. -/
def Live (i : Image) : BindEntry → Prop
  | .text c buffer capacity =>
      buffer = (i.text c).value.address ∧ capacity = (i.text c).value.capacity
  | _ => True

def valueOf (i : Image) (idi : IdImage) : BindEntry → Value
  | .id => if i.idNull then .null else .integer i.idValue
  | .idOfIdImage => if idi.idNull then .null else .integer idi.idValue
  | .text c _ _ =>
      if (i.text c).null then .null else .text ((i.text c).value.data.take (i.text c).size)

/-- A row stored through a binding that is current: every size is there, and
every text that fits. -/
structure Loaded (row : User) (i i' : Image) (truncated : Column → Bool) : Prop where
  id : i'.idValue = row.id ∧ i'.idNull = false
  version : i'.version = i.version
  size : ∀ c, (i'.text c).size = (member row c).length ∧ (i'.text c).null = false
  stays : ∀ c, (i'.text c).value.address = (i.text c).value.address ∧
    (i'.text c).value.capacity = (i.text c).value.capacity
  cut : ∀ c, truncated c = true ↔ (i.text c).value.capacity < (member row c).length
  fits : ∀ c, truncated c = false →
    (i'.text c).value.data.take (member row c).length = member row c

/-- Every binding that has been made is that of the image as it is, unless its
version says otherwise. The image of an id never gets another version. -/
structure Sound (sts : Statements) : Prop where
  insert : sts.insertImageBinding.Sound sts.image.version (bindImage sts.image .insert)
  update : sts.updateImageBinding.Sound sts.image.version (bindImage sts.image .update)
  select : sts.selectImageBinding.Sound sts.image.version (bindImage sts.image .select)
  id : sts.idImageBinding.version ≠ 0 →
    sts.idImageBinding.Current sts.idImage.version (bindId sts.idImage)

structure Ready (sts : Statements) : Prop extends Sound sts where
  current : sts.selectImageBinding.Current sts.image.version (bindImage sts.image .select)

/-- What is relied on of the runtime. Nothing is said of a binding with an entry
that points elsewhere than where the image is. -/
structure LawfulBuffers (rt : Runtime) : Prop where
  setImage_null : ∀ t v, (rt.setImage t v).null = false
  setImage_size : ∀ t v, (rt.setImage t v).size = v.length
  setImage_data : ∀ t v, (rt.setImage t v).value.data.take v.length = v
  setImage_stays : ∀ t v, t.value.capacity = (rt.setImage t v).value.capacity →
    (rt.setImage t v).value.address = t.value.address
  setValue : ∀ t, t.null = false → rt.setValue t = t.value.data.take t.size
  setIntegerImage : ∀ value null i, rt.setIntegerImage value null i = (i, false)
  setIntegerValue : ∀ value, rt.setIntegerValue value false = value
  capacity_le : ∀ b n, n ≤ (rt.capacity b n).capacity
  send : ∀ bs i idi, (∀ e ∈ bs, Live i e) → rt.send bs i idi = bs.map (valueOf i idi)
  load : ∀ row i, Loaded row i (rt.load (bindImage i .select) row i).1
    (rt.load (bindImage i .select) row i).2
  loadId : ∀ id idi, rt.loadId (bindId idi) id idi = { idi with idValue := id, idNull := false }

/-- A result, too, loads its rows through the binding of the select statements. -/
structure Lawful (rt : Runtime) : Prop extends LawfulBuffers rt where
  loadImage : ∀ row sts, Ready sts →
    Ready (rt.loadImage row sts) ∧ initObject rt (rt.loadImage row sts).image = row

/-! The same operations without images and bindings. -/

def texts (o : User) : List Value := columns.map fun c => .text (member o c)

def plain : Operations Unit where
  persist obj := do
    match ← MonadExcept.ofExcept (← perform (.persist (texts obj))) with
    | none => throw objectAlreadyPersistent
    | some id => pure { obj with id := id }
  load id := do
    match ← MonadExcept.ofExcept (← perform (.find [.integer id])) with
    | none => throw notPersistent
    | some row => pure row
  update obj := do
    let affected ← MonadExcept.ofExcept (← perform (.update (texts obj ++ [.integer obj.id])))
    if affected = 0 then throw notPersistent
  erase id := do
    let affected ← MonadExcept.ofExcept (← perform (.erase [.integer id]))
    if affected ≠ 1 then throw notPersistent
  selectAll := do
    MonadExcept.ofExcept (← perform (.query none))
  selectFirst username := do
    let rows ← MonadExcept.ofExcept (← perform (.query (some username)))
    pure (rows.take 1)

section Bindings

variable {rt : Runtime} {sts : Statements} {i i' : Image} {o row : User}

theorem bindImage_congr (same : ∀ c, (i'.text c).value.address = (i.text c).value.address ∧
    (i'.text c).value.capacity = (i.text c).value.capacity) (sk : StatementKind) :
    bindImage i' sk = bindImage i sk := by
  unfold bindImage
  congr 1
  exact List.map_congr_left fun c _ => by rw [(same c).1, (same c).2]

theorem live_bindImage (i : Image) (sk : StatementKind) : ∀ e ∈ bindImage i sk, Live i e := by
  intro e mem
  unfold bindImage at mem
  rcases List.mem_append.mp mem with first | text
  · split_ifs at first
    · rw [List.mem_singleton.mp first]
      trivial
    · cases first
  · obtain ⟨c, -, rfl⟩ := List.mem_map.mp text
    exact ⟨rfl, rfl⟩

theorem Sound.image (h : Sound sts) (grown : sts.image.version < i'.version ∨
    i'.version = sts.image.version ∧
      ∀ c, (i'.text c).value.address = (sts.image.text c).value.address ∧
        (i'.text c).value.capacity = (sts.image.text c).value.capacity) :
    Sound { sts with image := i' } := by
  rcases grown with later | ⟨version, same⟩
  · exact ⟨h.insert.changed later, h.update.changed later, h.select.changed later, h.id⟩
  · refine ⟨?_, ?_, ?_, h.id⟩
    · rw [version, bindImage_congr same]
      exact h.insert
    · rw [version, bindImage_congr same]
      exact h.update
    · rw [version, bindImage_congr same]
      exact h.select

theorem mem_columns (c : Column) : c ∈ columns := by
  cases c <;> decide

theorem Sound.initImage (law : LawfulBuffers rt) (h : Sound sts) (o : User) :
    Sound (sts.initImage rt o) := by
  apply h.image
  split_ifs with grew
  · exact .inl (Nat.lt_succ_self _)
  · refine .inr ⟨rfl, fun c => ?_⟩
    simp only [List.any_eq_true, decide_eq_true_eq, not_exists, not_and, not_not] at grew
    have same := grew c (mem_columns c)
    exact ⟨law.setImage_stays _ _ same, same.symm⟩

theorem Sound.bindInsert (h : Sound sts) : Sound sts.bindInsert :=
  ⟨(refresh_current h.insert).sound, h.update, h.select, h.id⟩

theorem Sound.bindUpdate (h : Sound sts) : Sound sts.bindUpdate :=
  ⟨h.insert, (refresh_current h.update).sound, h.select, h.id⟩

theorem Sound.bindSelect (h : Sound sts) : Ready sts.bindSelect :=
  ⟨⟨h.insert, h.update, (refresh_current h.select).sound, h.id⟩, refresh_current h.select⟩

theorem Sound.bindIdImage_current (h : Sound sts) :
    sts.bindIdImage.idImageBinding.Current sts.idImage.version (bindId sts.idImage) :=
  refresh_current fun made => (h.id made).sound made

theorem Sound.bindIdImage (h : Sound sts) : Sound sts.bindIdImage :=
  ⟨h.insert, h.update, h.select, fun _ => h.bindIdImage_current⟩

theorem Sound.initId (rt : Runtime) (h : Sound sts) (id : Int) : Sound (sts.initId rt id) :=
  ⟨h.insert, h.update, h.select, h.id⟩

@[simp] theorem bindUpdateId_image (u : Bool) : (sts.bindUpdateId u).image = sts.image := by
  unfold Statements.bindUpdateId
  split_ifs <;> rfl

@[simp] theorem bindUpdateId_idImage (u : Bool) :
    (sts.bindUpdateId u).idImage = sts.idImage := by
  unfold Statements.bindUpdateId
  split_ifs <;> rfl

theorem Sound.bindUpdateId (h : Sound sts)
    (current : sts.updateImageBinding.Current sts.image.version (bindImage sts.image .update))
    (u : Bool) :
    Sound (sts.bindUpdateId u) ∧
      (sts.bindUpdateId u).updateImageBinding.value = bindImage sts.image .update ∧
      (sts.bindUpdateId u).idImageBinding.value = bindId sts.idImage := by
  unfold Statements.bindUpdateId
  split_ifs with again bound
  · exact ⟨⟨h.insert, h.update, h.select, fun _ => h.bindIdImage_current⟩, current.value,
      h.bindIdImage_current.value⟩
  · exact ⟨⟨h.insert, current.touched.sound, h.select, fun _ => h.bindIdImage_current⟩,
      current.value, h.bindIdImage_current.value⟩
  · simp only [not_or, not_not] at again
    exact ⟨h, current.value, (h.id again.2).value⟩

def Holds (o : User) (i : Image) : Prop :=
  ∀ c, (i.text c).null = false ∧ (i.text c).size = (member o c).length ∧
    (i.text c).value.data.take (member o c).length = member o c

theorem holds_initImage (law : LawfulBuffers rt) (o : User) :
    Holds o (sts.initImage rt o).image := by
  intro c
  have text : ((sts.initImage rt o).image.text c) =
      rt.setImage ⟨(sts.image.text c).value, 0, false⟩ (member o c) := by
    unfold Statements.initImage
    dsimp only
    split_ifs <;> rfl
  rw [text]
  exact ⟨law.setImage_null _ _, law.setImage_size _ _, law.setImage_data _ _⟩

theorem holds_texts (holds : Holds o i) (idi : IdImage) :
    (bindImage i .insert).map (valueOf i idi) = texts o := by
  simp only [bindImage, ne_eq, not_true_eq_false, false_and, if_false, List.nil_append,
    List.map_map, texts]
  refine List.map_congr_left fun c _ => ?_
  obtain ⟨null, size, data⟩ := holds c
  simp [valueOf, null, size, data]

theorem initId_value (law : LawfulBuffers rt) (i : Image) (id : Int) :
    (bindId (sts.initId rt id).idImage).map (valueOf i (sts.initId rt id).idImage) =
      [.integer id] := by
  simp [bindId, valueOf, Statements.initId, initIdImage, law.setIntegerImage]

theorem initObject_loaded (law : LawfulBuffers rt) {truncated : Column → Bool}
    (h : Loaded row i i' truncated) (fits : columns.any truncated = false) :
    initObject rt i' = row := by
  have text : ∀ c, rt.setValue (i'.text c) = member row c := by
    intro c
    have whole : truncated c = false := by
      simpa using List.any_eq_false.mp fits c (mem_columns c)
    rw [law.setValue _ (h.size c).2, (h.size c).1]
    exact h.fits c whole
  cases row
  simp only [initObject, h.id.1, h.id.2, law.setIntegerValue, text, member]

theorem Ready.fetch (law : LawfulBuffers rt) (h : Ready sts) (row : User) :
    Ready (sts.fetch rt row) ∧
      Loaded row sts.image (sts.fetch rt row).image (sts.fetch rt row).selectImageTruncated := by
  have loaded := law.load row sts.image
  rw [← h.current.value] at loaded
  have same := bindImage_congr loaded.stays .select
  refine ⟨⟨?_, ?_⟩, loaded⟩
  · obtain ⟨insert, update, select, id⟩ :=
      h.toSound.image (.inr ⟨loaded.version, loaded.stays⟩)
    exact ⟨insert, update, select, id⟩
  · refine ⟨h.current.made, ?_, ?_⟩
    · exact h.current.source.trans loaded.version.symm
    · exact h.current.value.trans same.symm

theorem growImage_image (rt : Runtime) (cut : columns.any sts.selectImageTruncated = true) :
    (sts.growImage rt).image =
      { (grow rt sts.image sts.selectImageTruncated).1 with version := sts.image.version + 1 } := by
  unfold Statements.growImage
  simp only [grow, cut, if_true]

theorem growImage_room (law : LawfulBuffers rt)
    (loaded : Loaded row i sts.image sts.selectImageTruncated)
    (cut : columns.any sts.selectImageTruncated = true) (c : Column) :
    (member row c).length ≤ ((sts.growImage rt).image.text c).value.capacity := by
  rw [growImage_image rt cut]
  simp only [grow]
  split_ifs with short
  · rw [(loaded.size c).1]
    exact law.capacity_le _ _
  · rw [loaded.cut, Nat.not_lt] at short
    rw [(loaded.stays c).2]
    exact short

theorem fits_of_room {truncated : Column → Bool} (loaded : Loaded row i i' truncated)
    (room : ∀ c, (member row c).length ≤ (i.text c).value.capacity) :
    columns.any truncated = false := by
  apply List.any_eq_false.mpr
  intro c _ short
  have less := (loaded.cut c).mp short
  have := room c
  omega

theorem Ready.fetchRow (law : LawfulBuffers rt) (h : Ready sts) (row : User) :
    Ready (sts.fetchRow rt row) ∧ initObject rt (sts.fetchRow rt row).image = row := by
  obtain ⟨ready, loaded⟩ := h.fetch law row
  unfold Statements.fetchRow
  dsimp only
  split_ifs with cut again
  · have version := congrArg Image.version (growImage_image rt cut)
    have sound : Sound ((sts.fetch rt row).growImage rt) := by
      obtain ⟨insert, update, select, id⟩ :=
        ready.toSound.image (.inl (by rw [version]; exact Nat.lt_succ_self _))
      exact ⟨insert, update, select, id⟩
    obtain ⟨ready', loaded'⟩ := sound.bindSelect.fetch law row
    have room := growImage_room law loaded cut
    exact ⟨ready', initObject_loaded law loaded' (fits_of_room loaded' room)⟩
  · have version := congrArg Image.version (growImage_image rt cut)
    have source : ((sts.fetch rt row).growImage rt).selectImageBinding.source =
        (sts.fetch rt row).image.version := ready.current.source
    rw [source, version] at again
    exact absurd (Nat.succ_ne_self _) again
  · rw [Bool.not_eq_true] at cut
    exact ⟨ready, initObject_loaded law loaded cut⟩

end Bindings

section Operations

variable {rt : Runtime} {sts : Statements}

theorem persist_bound (law : Lawful rt) (sound : Sound sts) (obj : User) :
    ∃ b, (sts.initImage rt obj).bindInsert.bindIdImage = b ∧ Sound b ∧
      rt.send b.insertImageBinding.value b.image b.idImage = texts obj ∧
      b.idImageBinding.value = bindId b.idImage := by
  have inited := sound.initImage law.toLawfulBuffers obj
  have entries := (refresh_current inited.insert).value
  have sent := law.send _ _ (sts.initImage rt obj).idImage
    (live_bindImage (sts.initImage rt obj).image .insert)
  refine ⟨_, rfl, inited.bindInsert.bindIdImage, ?_, inited.bindInsert.bindIdImage_current.value⟩
  exact (congrArg (rt.send · _ _) entries).trans
    (sent.trans (holds_texts (holds_initImage law.toLawfulBuffers obj) _))

theorem persist_hides (law : Lawful rt) (obj : User) :
    Hides Sound ((generated rt).persist obj) (plain.persist obj) := by
  intro σ h sts s sound
  obtain ⟨b, bound, sound', sent, entry⟩ := persist_bound law sound obj
  simp only [generated, plain, ObjectTraits.persist, run_bind, run_modify, run_get, run_perform,
    run_ofExcept, andThen_ok, bound]
  rw [sent]
  rcases h (.persist (texts obj)) s with ⟨e | _ | id, s'⟩
  · exact ⟨b, sound', rfl⟩
  · exact ⟨b, sound', rfl⟩
  · have loaded := law.loadId id b.idImage
    rw [← entry] at loaded
    refine ⟨{ b with idImage := { b.idImage with idValue := id, idNull := false } }, ?_, ?_⟩
    · exact ⟨sound'.insert, sound'.update, sound'.select, sound'.id⟩
    · simp only [andThen_ok, run_bind, run_modify, run_get, run_pure, loaded, idOf,
        law.setIntegerValue]

theorem update_bound (law : Lawful rt) (sound : Sound sts) (obj : User) :
    ∃ i, (sts.initId rt obj.id).initImage rt obj = i ∧
      ∃ b, i.bindUpdate.bindUpdateId (i.updateImageBinding.stale i.image.version) = b ∧ Sound b ∧
        rt.send (b.updateImageBinding.value ++ b.idImageBinding.value) b.image b.idImage =
          texts obj ++ [.integer obj.id] := by
  have inited := (sound.initId rt obj.id).initImage law.toLawfulBuffers obj
  obtain ⟨sound', entries, entry⟩ := inited.bindUpdate.bindUpdateId (refresh_current inited.update)
    (((sts.initId rt obj.id).initImage rt obj).updateImageBinding.stale
      ((sts.initId rt obj.id).initImage rt obj).image.version)
  refine ⟨_, rfl, _, rfl, sound', ?_⟩
  rw [entries, entry, bindUpdateId_image, bindUpdateId_idImage, law.send, List.map_append]
  · exact congrArg₂ (· ++ ·) (holds_texts (holds_initImage law.toLawfulBuffers obj) _)
      (initId_value law.toLawfulBuffers _ obj.id)
  · intro e mem
    rcases List.mem_append.mp mem with text | id
    · exact live_bindImage _ _ e text
    · rw [List.mem_singleton.mp id]
      trivial

theorem update_hides (law : Lawful rt) (obj : User) :
    Hides Sound ((generated rt).update obj) (plain.update obj) := by
  intro σ h sts s sound
  obtain ⟨i, inited, b, bound, sound', sent⟩ := update_bound law sound obj
  simp only [generated, plain, ObjectTraits.update, run_bind, run_modify, run_get, run_perform,
    run_ofExcept, andThen_ok, inited, bound]
  rw [sent]
  rcases h (.update _) s with ⟨e | affected, s'⟩
  · exact ⟨b, sound', rfl⟩
  · refine ⟨b, sound', ?_⟩
    simp only [andThen_ok]
    split_ifs <;> rfl

theorem id_bound (law : Lawful rt) (sound : Sound sts) (id : Int) :
    ∃ b, (sts.initId rt id).bindIdImage = b ∧ Sound b ∧
      rt.send b.idImageBinding.value b.image b.idImage = [.integer id] := by
  have entry := (sound.initId rt id).bindIdImage_current.value
  refine ⟨_, rfl, (sound.initId rt id).bindIdImage, ?_⟩
  rw [entry, law.send]
  · exact initId_value law.toLawfulBuffers _ id
  · intro e mem
    rw [List.mem_singleton.mp mem]
    trivial

theorem erase_hides (law : Lawful rt) (id : Int) :
    Hides Sound ((generated rt).erase id) (plain.erase id) := by
  intro σ h sts s sound
  obtain ⟨b, bound, sound', sent⟩ := id_bound law sound id
  simp only [generated, plain, ObjectTraits.erase, run_bind, run_modify, run_get, run_perform,
    run_ofExcept, andThen_ok, bound]
  rw [sent]
  rcases h (.erase [.integer id]) s with ⟨e | affected, s'⟩
  · exact ⟨b, sound', rfl⟩
  · refine ⟨b, sound', ?_⟩
    simp only [andThen_ok]
    split_ifs <;> rfl

theorem find_bound (law : Lawful rt) (sound : Sound sts) (id : Int) :
    ∃ b, (sts.initId rt id).bindIdImage.bindSelect = b ∧ Ready b ∧
      rt.send b.idImageBinding.value b.image b.idImage = [.integer id] := by
  obtain ⟨b, bound, sound', sent⟩ := id_bound law sound id
  rw [bound]
  exact ⟨_, rfl, sound'.bindSelect, sent⟩

theorem load_hides (law : Lawful rt) (id : Int) :
    Hides Sound ((generated rt).load id) (plain.load id) := by
  intro σ h sts s sound
  obtain ⟨b, bound, ready, sent⟩ := find_bound law sound id
  simp only [generated, plain, ObjectTraits.find, find_, run_bind, run_modify, run_get,
    run_perform, run_ofExcept, andThen_ok, bound]
  rw [sent]
  rcases h (.find [.integer id]) s with ⟨e | _ | row, s'⟩
  · exact ⟨b, ready.toSound, rfl⟩
  · exact ⟨b, ready.toSound, rfl⟩
  · obtain ⟨ready', holds⟩ := ready.fetchRow law.toLawfulBuffers row
    refine ⟨b.fetchRow rt row, ready'.toSound, ?_⟩
    simp only [andThen_ok, run_bind, run_modify, run_get, run_pure, Bool.not_true,
      Bool.false_eq_true, if_false, holds]

theorem run_objects (law : Lawful rt) {σ : Type} (h : Handler Command.Reply σ) (rows : List User)
    (ready : Ready sts) (s : σ) :
    ∃ sts', Ready sts' ∧ run h (objects rt rows) sts s = (.ok rows, sts', s) := by
  induction rows generalizing sts with
  | nil => exact ⟨sts, ready, rfl⟩
  | cons row rest ih =>
    obtain ⟨ready', holds⟩ := law.loadImage row sts ready
    obtain ⟨sts', last, ran⟩ := ih ready'
    refine ⟨sts', last, ?_⟩
    simp only [objects, run_bind, run_modify, run_get, andThen_ok, ran, run_pure, holds]

theorem selected_hides (law : Lawful rt) (username : Option Bytes)
    (turns : List User → List User) :
    Hides Sound (do objects rt (turns (← query username)))
      (do
        let rows ← MonadExcept.ofExcept (← perform (.query username))
        pure (turns rows)) := by
  intro σ h sts s sound
  simp only [query, run_bind, run_modify, run_perform, run_ofExcept, andThen_ok]
  rcases h (.query username) s with ⟨e | rows, s'⟩
  · exact ⟨_, sound.bindSelect.toSound, rfl⟩
  · obtain ⟨sts', ready, ran⟩ := run_objects law h (turns rows) sound.bindSelect s'
    exact ⟨sts', ready.toSound, ran⟩

theorem selectAll_hides (law : Lawful rt) :
    Hides Sound (generated rt).selectAll plain.selectAll := by
  intro σ h sts s sound
  obtain ⟨sts', sound', ran⟩ := selected_hides law none id σ h sts s sound
  refine ⟨sts', sound', ran.trans ?_⟩
  simp only [plain, run_bind, run_perform, run_ofExcept, andThen_ok]
  rcases h (.query none) s with ⟨e | rows, s'⟩ <;> rfl

theorem body_hides (law : Lawful rt) (t : Tx) :
    Hides Sound ((generated rt).body t) (plain.body t) := by
  have commit : Hides Sound (Operations.commit (τ := Statements)) Operations.commit :=
    hides_bind (hides_perform _) hides_ofExcept
  cases t with
  | persist entity =>
    exact hides_bind (persist_hides law entity) fun _ => hides_bind commit fun _ => hides_pure _
  | load id => exact hides_bind (load_hides law id) fun _ => hides_bind commit fun _ => hides_pure _
  | update entity => exact hides_bind (update_hides law entity) fun _ => commit
  | erase id => exact hides_bind (erase_hides law id) fun _ => commit
  | selectAll =>
    exact hides_bind (selectAll_hides law) fun _ => hides_bind commit fun _ => hides_pure _
  | selectByUsername username =>
    refine hides_bind (selected_hides law (some username) (List.take 1)) fun rows => ?_
    cases rows with
    | nil => exact hides_pure _
    | cons user rest => exact hides_bind commit fun _ => hides_pure _

theorem transact_hides (law : Lawful rt) (t : Tx) :
    Hides Sound ((generated rt).transact t) (plain.transact t) := by
  have closes : Hides Sound (Operations.close (τ := Statements)) Operations.close :=
    hides_perform _
  refine hides_bind (hides_perform _) fun reply => hides_bind (hides_ofExcept reply) fun _ => ?_
  refine hides_bind (hides_tryCatch (body_hides law t) fun e => ?_) fun r => ?_
  · exact hides_bind closes fun _ => hides_throw e
  · exact hides_bind closes fun _ => hides_pure r

theorem answers_hides (law : Lawful rt) (txs : List Tx) :
    Hides Sound ((generated rt).answers txs) (plain.answers txs) := by
  induction txs with
  | nil => exact hides_pure _
  | cons t rest ih =>
    refine hides_bind (hides_tryCatch ?_ fun e => hides_pure _) fun answer => ?_
    · exact hides_bind (transact_hides law t) fun r => hides_pure _
    · exact hides_bind ih fun later => hides_pure _

structure Unbound (sts : Statements) : Prop where
  insert : sts.insertImageBinding.version = 0
  update : sts.updateImageBinding.version = 0
  select : sts.selectImageBinding.version = 0
  id : sts.idImageBinding.version = 0

theorem Unbound.sound (h : Unbound sts) : Sound sts :=
  ⟨sound_unmade h.insert, sound_unmade h.update, sound_unmade h.select,
    fun made => absurd h.id made⟩

/-- Whatever a server replies, throws and does, transactions on a new connection
send it what the objects hold, and answer what it replied. -/
theorem bindings_hidden (law : Lawful rt) (unbound : Unbound sts) (txs : List Tx) {σ : Type}
    (h : Handler Command.Reply σ) (s : σ) :
    (run h ((generated rt).answers txs) sts s).1 = (run h (plain.answers txs) () s).1 ∧
      (run h ((generated rt).answers txs) sts s).2.2 = (run h (plain.answers txs) () s).2.2 := by
  obtain ⟨sts', -, ran⟩ := answers_hides law txs σ h sts s unbound.sound
  rw [ran]
  exact ⟨rfl, rfl⟩

end Operations

/-! A runtime whose buffers move whenever they grow. -/

instance (i : Image) : DecidablePred (Live i)
  | .id | .idOfIdImage => .isTrue trivial
  | .text _ _ _ => inferInstanceAs (Decidable (_ ∧ _))

namespace Moving

def capacity (b : Buffer) (n : Nat) : Buffer :=
  if n ≤ b.capacity then b else ⟨b.address + 1, n, b.data⟩

def store (b : Buffer) (v : Bytes) : Buffer := { b with data := v ++ b.data.drop v.length }

def load (bs : List BindEntry) (row : User) (i : Image) : Image × (Column → Bool) :=
  let cut := fun c => decide ((i.text c).value.capacity < (member row c).length)
  let text := fun c => if cut c then ⟨(i.text c).value, (member row c).length, false⟩
    else ⟨store (i.text c).value (member row c), (member row c).length, false⟩
  if bs = bindImage i .select then (⟨row.id, false, text, i.version⟩, cut)
  else (i, fun _ => false)

def buffers : Runtime where
  setImage t v := ⟨store (capacity t.value v.length) v, v.length, false⟩
  setValue t := if t.null then [] else t.value.data.take t.size
  setIntegerImage _ _ i := (i, false)
  setIntegerValue value null := if null then 0 else value
  capacity := capacity
  send bs i idi := bs.map fun e => if Live i e then valueOf i idi e else .null
  load := load
  loadId bs id idi := if .idOfIdImage ∈ bs then { idi with idValue := id, idNull := false } else idi
  loadImage _ sts := sts

def runtime : Runtime := { buffers with loadImage := fun row sts => sts.fetchRow buffers row }

theorem load_select (row : User) (i : Image) :
    Loaded row i (load (bindImage i .select) row i).1 (load (bindImage i .select) row i).2 := by
  unfold load
  rw [if_pos rfl]
  refine ⟨⟨rfl, rfl⟩, rfl, fun c => ?_, fun c => ?_, fun c => decide_eq_true_iff, fun c fits => ?_⟩
  · dsimp only
    split_ifs <;> exact ⟨rfl, rfl⟩
  · dsimp only
    split_ifs <;> exact ⟨rfl, rfl⟩
  · have whole : ¬(i.text c).value.capacity < (member row c).length := of_decide_eq_false fits
    simp only [whole, decide_false, Bool.false_eq_true, if_false, store]
    exact List.take_left

theorem lawfulBuffers : LawfulBuffers runtime where
  setImage_null t v := rfl
  setImage_size t v := rfl
  setImage_data t v := List.take_left
  setImage_stays t v same := by
    change t.value.capacity = (capacity t.value v.length).capacity at same
    change (capacity t.value v.length).address = t.value.address
    unfold capacity at same ⊢
    split_ifs at same ⊢ with room
    · rfl
    · simp only at same
      omega
  capacity_le b n := by
    change n ≤ (capacity b n).capacity
    unfold capacity
    split_ifs with room
    · exact room
    · exact Nat.le_refl n
  setValue t present := by
    change (if t.null then [] else t.value.data.take t.size) = _
    rw [present]
    rfl
  setIntegerImage _ _ _ := rfl
  setIntegerValue _ := rfl
  send bs i idi live := List.map_congr_left fun e mem => if_pos (live e mem)
  load := load_select
  loadId _ _ := rfl

theorem lawful : Lawful runtime where
  toLawfulBuffers := lawfulBuffers
  loadImage row _ ready := ready.fetchRow lawfulBuffers row

def unbound : Statements where
  image := ⟨0, false, fun _ => ⟨⟨0, 4, []⟩, 0, false⟩, 0⟩
  idImage := ⟨0, false, 0⟩
  insertImageBinding := ⟨[], 0, 0⟩
  updateImageBinding := ⟨[], 0, 0⟩
  selectImageBinding := ⟨[], 0, 0⟩
  idImageBinding := ⟨[], 0, 0⟩
  updateIdImageVersion := 0
  selectImageTruncated _ := false

theorem unbound_unbound : Unbound unbound := ⟨rfl, rfl, rfl, rfl⟩

def entering : Handler Command.Reply (List Command)
  | .begin, log => (.ok (), log ++ [.begin])
  | .commit, log => (.ok (), log ++ [.commit])
  | .close, log => ((), log ++ [.close])
  | .persist params, log => (.ok (some 7), log ++ [.persist params])
  | .find params, log =>
      (.ok (some ⟨7, lit "maximilian", lit "0011", lit "22"⟩), log ++ [.find params])
  | .update params, log => (.ok 1, log ++ [.update params])
  | .erase params, log => (.ok 0, log ++ [.erase params])
  | .query username, log => (.ok [], log ++ [.query username])

/-- The row of the find does not fit where the buffers are; the update follows
in buffers that have moved. -/
theorem bindings_hidden_moved :
    (run entering ((generated runtime).answers
      [.load 7, .update ⟨7, lit "max", lit "33", lit "44"⟩]) unbound []).2.2 =
    [.begin, .find [.integer 7], .commit, .close,
      .begin, .update [.text (lit "max"), .text (lit "33"), .text (lit "44"), .integer 7],
      .commit, .close] :=
  (bindings_hidden lawful unbound_unbound _ entering []).2.trans rfl

end Moving

end Ccfolio.BoundStatements

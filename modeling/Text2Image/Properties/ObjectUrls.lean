import Mathlib.Data.List.Perm.Lattice
import Mathlib.Data.List.NodupEquivFin
import Text2Image.Frontend.ImageHistory

/-! Whether the history view gives back what it takes from the browser: object URLs and timers. -/

set_option autoImplicit false

namespace Text2Image.imageHistory

open View

namespace View

variable (view : View)

def urlOf (ref : Nat) : Option Nat := (view.row ref).imageObjectUrl

def idOf (ref : Nat) : Int := (view.row ref).id

/-- The object URLs of the rows that are listed. -/
def held : List Nat := view.historyList.filterMap view.urlOf

/-- The row for which a step makes an object URL that is to stay. -/
def kept : Step → Option Nat
  | .binaryLoaded i true => view.binaries[i]?
  | _ => none

/-- That URL, when a reload has replaced the row while it waited for its image. -/
def strayed (ref : Option Nat) : List Nat :=
  match ref with
  | some ref => if ref ∈ view.historyList then [] else [view.created]
  | none => []

end View

def strays : List Step → List Nat
  | [] => []
  | step :: past => (after past).strayed ((after past).kept step) ++ strays past

/-- The URLs of images that came when the page had been left. -/
def late : List Step → List Nat
  | [] => []
  | step :: past =>
    if (after past).subscribed = false ∧ ((after past).kept step).isSome then (after past).created :: late past
    else late past

/-- Every object URL that was created has either been revoked, once, or is the one of a listed row, and of
no other, or it is astray. Once the page has been left, the listed rows hold only what came later. One
timer at most is set, and none then.
-/
structure Accounted (steps : List Step) : Prop where
  urls : ((after steps).revoked ++ (after steps).held ++ strays steps).Perm (List.range (after steps).created)
  left : (after steps).subscribed = false → ∀ url ∈ (after steps).held, url ∈ late steps
  timer : (after steps).timeouts = (after steps).refreshTimer.toList
  quiet : (after steps).subscribed = false → (after steps).timeouts = []

namespace View

variable {view : View}

/-! ## Changes of one row -/

@[simp] theorem row_update_self (ref : Nat) (change : Row → Row) :
    (view.update ref change).row ref = change (view.row ref) :=
  Function.update_self ..

theorem row_update_of_ne {ref other : Nat} (change : Row → Row) (differ : other ≠ ref) :
    (view.update ref change).row other = view.row other :=
  Function.update_of_ne differ ..

/-- A field that the change leaves alone. -/
theorem field_update {α : Type} (field : Row → α) (ref other : Nat) {change : Row → Row}
    (same : field (change (view.row ref)) = field (view.row ref)) :
    field ((view.update ref change).row other) = field (view.row other) := by
  by_cases here : other = ref
  · rw [here, row_update_self, same]
  · rw [row_update_of_ne change here]

/-! ## Steps that leave the object URLs alone -/

/-- Neither the list nor an object URL nor a wait for an image is touched. -/
structure Quiet (view next : View) : Prop where
  rows : next.rows = view.rows
  historyList : next.historyList = view.historyList
  created : next.created = view.created
  revoked : next.revoked = view.revoked
  binaries : next.binaries = view.binaries
  details : ∀ ref ∈ next.details, ref ∈ view.details ∨ ref ∈ view.historyList
  id : ∀ ref, next.idOf ref = view.idOf ref
  url : ∀ ref, next.urlOf ref = view.urlOf ref
  binaryLoading : ∀ ref, (next.row ref).binaryLoading = (view.row ref).binaryLoading

theorem Quiet.trans {middle next : View} (first : Quiet view middle) (second : Quiet middle next) :
    Quiet view next where
  rows := second.rows.trans first.rows
  historyList := second.historyList.trans first.historyList
  created := second.created.trans first.created
  revoked := second.revoked.trans first.revoked
  binaries := second.binaries.trans first.binaries
  details ref waits := (second.details ref waits).elim (first.details ref) fun listed => .inr (first.historyList ▸ listed)
  id ref := (second.id ref).trans (first.id ref)
  url ref := (second.url ref).trans (first.url ref)
  binaryLoading ref := (second.binaryLoading ref).trans (first.binaryLoading ref)

/-- Everything but the fields that `Quiet` speaks about may differ. -/
theorem quiet_of_row {next : View} (row : next.row = view.row) (rows : next.rows = view.rows)
    (historyList : next.historyList = view.historyList) (created : next.created = view.created)
    (revoked : next.revoked = view.revoked) (binaries : next.binaries = view.binaries)
    (details : next.details = view.details) : Quiet view next where
  rows := rows
  historyList := historyList
  created := created
  revoked := revoked
  binaries := binaries
  details ref waits := .inl (details ▸ waits)
  id ref := by rw [idOf, row, idOf]
  url ref := by rw [urlOf, row, urlOf]
  binaryLoading ref := by rw [row]

theorem quiet_self : Quiet view view := quiet_of_row rfl rfl rfl rfl rfl rfl rfl

theorem quiet_update (ref : Nat) {change : Row → Row} (id : (change (view.row ref)).id = (view.row ref).id)
    (url : (change (view.row ref)).imageObjectUrl = (view.row ref).imageObjectUrl)
    (binaryLoading : (change (view.row ref)).binaryLoading = (view.row ref).binaryLoading) :
    Quiet view (view.update ref change) where
  rows := rfl
  historyList := rfl
  created := rfl
  revoked := rfl
  binaries := rfl
  details _ waits := .inl waits
  id other := field_update (fun row => row.id) ref other id
  url other := field_update Row.imageObjectUrl ref other url
  binaryLoading other := field_update Row.binaryLoading ref other binaryLoading

theorem quiet_endAction (ref : Nat) : Quiet view (view.endAction ref) := quiet_update ref rfl rfl rfl

theorem quiet_endLoad (load : Load) : Quiet view (view.endLoad load) := by
  have left : Quiet view { view with loading := view.loading && load.silent } :=
    quiet_of_row rfl rfl rfl rfl rfl rfl rfl
  unfold endLoad
  dsimp only
  split
  · exact left.trans (quiet_endAction _)
  · exact left

theorem quiet_startAction (action : ActionType) (ref : Nat) : Quiet view (view.startAction action ref) :=
  (@quiet_update view ref (fun row => { row with actionType := some action }) rfl rfl rfl).trans
    (quiet_of_row rfl rfl rfl rfl rfl rfl rfl)

theorem quiet_confirm (action : ActionType) (ref : Nat) : Quiet view (view.confirm action ref) :=
  quiet_of_row rfl rfl rfl rfl rfl rfl rfl

theorem quiet_confirmed (action : ActionType) (ref : Nat) (agreed : Bool) :
    Quiet view (view.confirmed action ref agreed) := by
  unfold View.confirmed
  split
  · exact quiet_startAction action ref
  · exact quiet_self

theorem quiet_actionAnswered (action : ActionType) (ref : Nat) (succeeded : Bool) :
    Quiet view (view.actionAnswered action ref succeeded) := by
  unfold View.actionAnswered
  split
  · exact quiet_endAction ref
  · cases action with
    | cancel | retry | delete => exact quiet_of_row rfl rfl rfl rfl rfl rfl rfl

theorem quiet_handleCancel (ref : Nat) : Quiet view (view.handleCancel ref) := by
  unfold handleCancel
  dsimp only
  split
  · exact quiet_self
  · exact quiet_confirm .cancel ref

theorem quiet_handleRetry (ref : Nat) : Quiet view (view.handleRetry ref) := by
  unfold handleRetry
  dsimp only
  split
  · exact quiet_self
  · exact quiet_startAction .retry ref

theorem quiet_handleDelete (ref : Nat) : Quiet view (view.handleDelete ref) := by
  unfold handleDelete
  dsimp only
  split
  · exact quiet_self
  · exact quiet_confirm .delete ref

theorem quiet_handleDownload (ref : Nat) : Quiet view (view.handleDownload ref) := by
  unfold handleDownload
  dsimp only
  split
  · exact quiet_self
  · split
    · exact quiet_self
    · exact quiet_of_row rfl rfl rfl rfl rfl rfl rfl
    · exact quiet_of_row rfl rfl rfl rfl rfl rfl rfl

theorem quiet_scheduleSocketRefresh : Quiet view view.scheduleSocketRefresh := by
  unfold scheduleSocketRefresh
  split
  · exact quiet_self
  · exact quiet_of_row rfl rfl rfl rfl rfl rfl rfl

theorem quiet_handleTaskSocketEvent (type : String) : Quiet view (view.handleTaskSocketEvent type) := by
  unfold handleTaskSocketEvent
  split
  · exact quiet_self
  · exact quiet_scheduleSocketRefresh

theorem quiet_clearRefreshTimer : Quiet view view.clearRefreshTimer := by
  unfold clearRefreshTimer
  split
  · exact quiet_of_row rfl rfl rfl rfl rfl rfl rfl
  · exact quiet_self

/-! ## The invariant -/

/-- The rows listed have different ids. A row that waits for its image is marked, so that it waits once, and
it has no object URL.
-/
structure Sound (view : View) : Prop where
  ids : (view.historyList.map view.idOf).Nodup
  listed : ∀ ref ∈ view.historyList, ref < view.rows
  details : ∀ ref ∈ view.details, ref < view.rows
  binaries : ∀ ref ∈ view.binaries, ref < view.rows ∧ (view.row ref).binaryLoading = true ∧ view.urlOf ref = none
  once : view.binaries.Nodup

/-- What a step does to the object URLs. -/
structure Effect (view next : View) (kept : Option Nat) : Prop where
  grows : view.created ≤ next.created
  urls : (next.revoked ++ next.held ++ view.strayed kept).Perm
    (view.revoked ++ view.held ++ List.range' view.created (next.created - view.created))
  held : ∀ url ∈ next.held, url ∈ view.held ∨ (kept.isSome ∧ url = view.created)

namespace Quiet

variable {next : View} (quiet : Quiet view next)
include quiet

theorem held : next.held = view.held := by
  rw [View.held, View.held, quiet.historyList, funext quiet.url]

theorem sound (sound : Sound view) : Sound next where
  ids := by
    rw [quiet.historyList, funext quiet.id]
    exact sound.ids
  listed ref listed := by
    rw [quiet.historyList] at listed
    exact quiet.rows ▸ sound.listed ref listed
  details ref waits := quiet.rows ▸ (quiet.details ref waits).elim (sound.details ref) (sound.listed ref)
  binaries ref waits := by
    rw [quiet.binaries] at waits
    rw [quiet.rows, quiet.binaryLoading, quiet.url]
    exact sound.binaries ref waits
  once := quiet.binaries ▸ sound.once

theorem effect : Effect view next none where
  grows := quiet.created.ge
  urls := by simp [quiet.revoked, quiet.held, quiet.created, strayed]
  held url shown := .inl (quiet.held ▸ shown)

theorem then_effect {last : View} (effect : Effect next last none) : Effect view last none where
  grows := quiet.created ▸ effect.grows
  urls := by
    have urls := effect.urls
    rwa [quiet.created, quiet.revoked, quiet.held] at urls
  held url shown := by
    rcases effect.held url shown with before | ⟨made, -⟩
    · exact .inl (quiet.held ▸ before)
    · cases made

end Quiet

theorem Effect.then_quiet {next last : View} {kept : Option Nat} (effect : Effect view next kept)
    (quiet : Quiet next last) : Effect view last kept where
  grows := quiet.created ▸ effect.grows
  urls := by
    rw [quiet.created, quiet.revoked, quiet.held]
    exact effect.urls
  held url shown := effect.held url (quiet.held ▸ shown)

/-! ## Revoking -/

theorem revokeObjectUrls_eq {refs : List Nat} (distinct : refs.Nodup) :
    view.revokeObjectUrls refs = { view with
      row := fun ref => if ref ∈ refs then { view.row ref with imageObjectUrl := none } else view.row ref
      revoked := view.revoked ++ refs.filterMap view.urlOf } := by
  induction refs generalizing view with
  | nil => simp [revokeObjectUrls]
  | cons first rest ih =>
    obtain ⟨fresh, distinct⟩ := List.nodup_cons.mp distinct
    -- the first revocation leaves the URLs of the rest as they are
    have others : rest.filterMap (view.revokeRowObjectUrl first).urlOf = rest.filterMap view.urlOf := by
      refine List.filterMap_congr fun ref member => ?_
      have differ : ref ≠ first := fun same => fresh (same ▸ member)
      simp only [urlOf, revokeRowObjectUrl]
      rw [row_update_of_ne _ differ]
    have urls : (first :: rest).filterMap view.urlOf = (view.row first).imageObjectUrl.toList ++ rest.filterMap view.urlOf := by
      rw [List.filterMap_cons, urlOf]
      cases (view.row first).imageObjectUrl <;> rfl
    change (view.revokeRowObjectUrl first).revokeObjectUrls rest = _
    rw [ih distinct, others, urls]
    simp only [revokeRowObjectUrl, update, List.append_assoc, View.mk.injEq, and_true]
    funext ref
    by_cases here : ref = first
    · subst here
      simp [fresh]
    · simp [here]

theorem effect_revokeAllObjectUrls (distinct : view.historyList.Nodup) :
    view.revokeAllObjectUrls.held = [] ∧ Effect view view.revokeAllObjectUrls none := by
  have cleared : view.revokeAllObjectUrls.held = [] := by
    rw [revokeAllObjectUrls, revokeObjectUrls_eq distinct, held]
    refine List.filterMap_eq_nil_iff.mpr fun ref listed => ?_
    simp only [urlOf]
    rw [if_pos listed]
  refine ⟨cleared, ?_, ?_, fun url shown => ?_⟩
  · rw [revokeAllObjectUrls, revokeObjectUrls_eq distinct]
  · rw [cleared, revokeAllObjectUrls, revokeObjectUrls_eq distinct]
    simp [strayed, held]
  · rw [cleared] at shown
    cases shown

/-! ## Rebuilding the list -/

theorem foldl_addRow (rows : List Row) :
    rows.foldl addRow view = { view with
      row := fun ref => if view.rows ≤ ref then (rows[ref - view.rows]?).getD (view.row ref) else view.row ref
      rows := view.rows + rows.length
      historyList := view.historyList ++ List.range' view.rows rows.length } := by
  induction rows generalizing view with
  | nil => simp
  | cons first rest ih =>
    rw [List.foldl_cons, ih]
    simp only [addRow, View.mk.injEq, and_true, List.length_cons]
    refine ⟨funext fun ref => ?_, by omega, by simp [List.range'_succ]⟩
    show (if view.rows + 1 ≤ ref then
        (rest[ref - (view.rows + 1)]?).getD (Function.update view.row view.rows first ref)
      else Function.update view.row view.rows first ref) = _
    -- a row of old, the first of the new ones, or a later one
    by_cases before : ref < view.rows
    · rw [if_neg (by omega), if_neg (by omega), Function.update_of_ne (by omega)]
    · by_cases here : ref = view.rows
      · subst here
        simp
      · obtain ⟨n, rfl⟩ := Nat.exists_eq_add_of_lt (show view.rows < ref by omega)
        rw [if_pos (by omega), if_pos (by omega), Function.update_of_ne here,
          show view.rows + n + 1 - (view.rows + 1) = n by omega, show view.rows + n + 1 - view.rows = n + 1 by omega,
          List.getElem?_cons_succ]

theorem map_range'_getD (rows : List Row) (start : Nat) (other : Nat → Row) :
    (List.range' start rows.length).map (fun ref => (rows[ref - start]?).getD (other ref)) = rows := by
  refine List.ext_getElem (by simp) fun i small _ => ?_
  simp only [List.length_map, List.length_range'] at small
  simp [small]

/-- The rows that are listed after a reload are the new ones. -/
theorem listed_foldl_addRow (rows : List Row) (empty : view.historyList = []) :
    (rows.foldl addRow view).historyList.map (rows.foldl addRow view).row = rows := by
  rw [foldl_addRow]
  simp only [empty, List.nil_append]
  refine (List.map_congr_left fun ref listed => ?_).trans (map_range'_getD rows view.rows view.row)
  rw [if_pos (List.mem_range'_1.mp listed).1]

theorem held_eq : view.held = (view.historyList.map view.row).filterMap Row.imageObjectUrl := by
  rw [held, List.filterMap_map]
  rfl

theorem ids_eq : view.historyList.map view.idOf = (view.historyList.map view.row).map fun row => row.id := by
  rw [List.map_map]
  rfl

theorem idOf_previous {id : Int} {ref : Nat} (found : view.previous id = some ref) : view.idOf ref = id := by
  have same := List.find?_some found
  exact of_decide_eq_true same

theorem previous_idOf {ref : Nat} (ids : (view.historyList.map view.idOf).Nodup) (listed : ref ∈ view.historyList) :
    view.previous (view.idOf ref) = some ref := by
  have some : ∃ found, view.previous (view.idOf ref) = .some found := by
    rw [← Option.isSome_iff_exists, previous, List.find?_isSome]
    exact ⟨ref, List.mem_reverse.mpr listed, by simp [idOf]⟩
  obtain ⟨found, eq⟩ := some
  have same := idOf_previous eq
  have member : found ∈ view.historyList := List.mem_reverse.mp (List.mem_of_find?_eq_some eq)
  rw [eq, List.inj_on_of_nodup_map ids member listed same]

theorem previous_eq_none {id : Int} (absent : id ∉ view.historyList.map view.idOf) : view.previous id = none := by
  refine List.find?_eq_none.mpr fun ref listed same => absent ?_
  exact List.mem_map.mpr ⟨ref, List.mem_reverse.mp listed, by simpa [idOf] using same⟩

/-- The object URL that a record with this id takes on. -/
def urlFor (view : View) (id : Int) : Option Nat := (view.previous id).bind view.urlOf

theorem filterMap_urlFor {refs : List Nat} (ids : (view.historyList.map view.idOf).Nodup)
    (listed : ∀ ref ∈ refs, ref ∈ view.historyList) :
    (refs.map view.idOf).filterMap view.urlFor = refs.filterMap view.urlOf := by
  rw [List.filterMap_map]
  refine List.filterMap_congr fun ref member => ?_
  simp [urlFor, previous_idOf ids (listed ref member)]

/-- The listed rows that a page does not have, and those that it has. -/
def dropped (view : View) (rawList : List Item) : List Nat :=
  view.historyList.filter fun ref => ! rawList.any fun item => item.id = (view.row ref).id

def stays (view : View) (rawList : List Item) : List Nat :=
  view.historyList.filter fun ref => rawList.any fun item => item.id = (view.row ref).id

/-- The rows of old and the new ones, when the URLs of the former have been revoked. -/
def leftRow (view : View) (rawList : List Item) : Nat → Row := (view.revokeObjectUrls (view.dropped rawList)).row

def nextRows (view : View) (rawList : List Item) : List Row :=
  rawList.map fun item => Row.normalizeRow item ((view.previous item.id).map (view.leftRow rawList))

section Rebuild

variable {rawList : List Item} (sound : Sound view)
include sound

theorem Sound.nodup : view.historyList.Nodup := sound.ids.of_map view.idOf

theorem revoked_dropped : view.revokeObjectUrls (view.dropped rawList) = { view with
    row := fun ref => if ref ∈ view.dropped rawList then { view.row ref with imageObjectUrl := none } else view.row ref
    revoked := view.revoked ++ (view.dropped rawList).filterMap view.urlOf } :=
  revokeObjectUrls_eq (sound.nodup.filter _)

theorem rebuildHistoryList_eq : view.rebuildHistoryList rawList = { view with
    row := fun ref =>
      if view.rows ≤ ref then ((view.nextRows rawList)[ref - view.rows]?).getD (view.leftRow rawList ref)
      else view.leftRow rawList ref
    rows := view.rows + rawList.length
    historyList := List.range' view.rows rawList.length
    revoked := view.revoked ++ (view.dropped rawList).filterMap view.urlOf } := by
  change (view.nextRows rawList).foldl addRow { view.revokeObjectUrls (view.dropped rawList) with historyList := [] } = _
  rw [foldl_addRow, revoked_dropped sound]
  simp only [nextRows, leftRow, revoked_dropped sound, List.nil_append, List.length_map]

omit sound in
theorem listed_rebuildHistoryList :
    (view.rebuildHistoryList rawList).historyList.map (view.rebuildHistoryList rawList).row = view.nextRows rawList :=
  @listed_foldl_addRow { view.revokeObjectUrls (view.dropped rawList) with historyList := [] } _ rfl

/-- A row that goes on with another record keeps its object URL. -/
theorem url_revoked_previous {item : Item} (member : item ∈ rawList) :
    ((view.previous item.id).map (view.leftRow rawList)).bind Row.imageObjectUrl = view.urlFor item.id := by
  rw [urlFor]
  cases found : view.previous item.id with
  | none => rfl
  | some ref =>
    have same : (view.row ref).id = item.id := idOf_previous found
    have stays : ref ∉ view.dropped rawList := fun drop => by
      have none := (List.mem_filter.mp drop).2
      rw [same, Bool.not_eq_true', List.any_eq_false] at none
      exact none item member (decide_eq_true rfl)
    simp only [leftRow, Option.map_some, Option.bind_some, urlOf]
    rw [revoked_dropped sound]
    exact congrArg Row.imageObjectUrl (if_neg stays)

theorem held_rebuildHistoryList :
    (view.rebuildHistoryList rawList).held = (rawList.map Item.id).filterMap view.urlFor := by
  rw [held_eq, listed_rebuildHistoryList, nextRows, List.filterMap_map, List.filterMap_map]
  exact List.filterMap_congr fun item member => url_revoked_previous sound member

omit sound in
theorem ids_rebuildHistoryList : (view.rebuildHistoryList rawList).historyList.map
    (view.rebuildHistoryList rawList).idOf = rawList.map Item.id := by
  rw [ids_eq, listed_rebuildHistoryList, nextRows, List.map_map]
  rfl

/-- The URLs of the rows that stay are those that the new rows take on. -/
theorem stays_perm (distinct : (rawList.map Item.id).Nodup) :
    ((view.stays rawList).filterMap view.urlOf).Perm ((rawList.map Item.id).filterMap view.urlFor) := by
  have listed : ∀ ref ∈ view.stays rawList, ref ∈ view.historyList := fun ref member => (List.mem_filter.mp member).1
  rw [← filterMap_urlFor sound.ids listed]
  -- an id that is not listed takes on nothing
  have none : (rawList.map Item.id).filterMap view.urlFor =
      ((rawList.map Item.id).filter fun id => id ∈ view.historyList.map view.idOf).filterMap view.urlFor := by
    rw [List.filterMap_filter]
    refine List.filterMap_congr fun id _ => ?_
    split
    · rfl
    · rw [urlFor, previous_eq_none (of_decide_eq_false (Bool.eq_false_iff.mpr ‹_›))]
      rfl
  rw [none]
  refine List.Perm.filterMap _ ((List.perm_ext_iff_of_nodup ?_ (distinct.filter _)).mpr fun id => ?_)
  · exact sound.ids.sublist (List.filter_sublist.map view.idOf)
  · simp only [stays, List.mem_map, List.mem_filter, List.any_eq_true, decide_eq_true_eq]
    constructor
    · rintro ⟨ref, ⟨listed, item, member, same⟩, rfl⟩
      exact ⟨⟨item, member, same⟩, ref, listed, rfl⟩
    · rintro ⟨⟨item, member, rfl⟩, ref, listed, same⟩
      exact ⟨ref, ⟨listed, item, member, same.symm⟩, same⟩

theorem effect_rebuildHistoryList (distinct : (rawList.map Item.id).Nodup) :
    Effect view (view.rebuildHistoryList rawList) none := by
  have eq := @rebuildHistoryList_eq view rawList sound
  have created : (view.rebuildHistoryList rawList).created = view.created := by rw [eq]
  have revoked : (view.rebuildHistoryList rawList).revoked =
      view.revoked ++ (view.dropped rawList).filterMap view.urlOf := by rw [eq]
  have kept := stays_perm sound distinct
  refine ⟨created.ge, ?_, fun url shown => .inl ?_⟩
  · -- what was held is held by rows that stay, or by rows that go
    have all : ((view.stays rawList).filterMap view.urlOf ++ (view.dropped rawList).filterMap view.urlOf).Perm
        view.held := by
      rw [← List.filterMap_append]
      exact (List.filter_append_perm _ view.historyList).filterMap view.urlOf
    rw [created, revoked, held_rebuildHistoryList sound]
    simp only [strayed, List.append_nil, Nat.sub_self, List.range'_zero, List.append_assoc]
    exact ((List.perm_append_comm.trans (kept.symm.append_right _)).trans all).append_left _
  · rw [held_rebuildHistoryList sound] at shown
    obtain ⟨ref, member, eq⟩ := List.mem_filterMap.mp (kept.symm.subset shown)
    exact List.mem_filterMap.mpr ⟨ref, (List.mem_filter.mp member).1, eq⟩

theorem sound_rebuildHistoryList (distinct : (rawList.map Item.id).Nodup) :
    Sound (view.rebuildHistoryList rawList) := by
  have eq := @rebuildHistoryList_eq view rawList sound
  have grown : view.rows ≤ (view.rebuildHistoryList rawList).rows := by
    rw [eq]
    exact Nat.le_add_right ..
  refine ⟨@ids_rebuildHistoryList view rawList ▸ distinct, ?_, ?_, ?_, ?_⟩
  · rw [eq]
    intro ref listed
    exact (List.mem_range'_1.mp (by simpa using listed)).2
  · intro ref waits
    refine (sound.details ref ?_).trans_le grown
    rwa [eq] at waits
  · -- a row that waits for its image is left as it is, listed or not
    intro ref waits
    have before : ref ∈ view.binaries := by rwa [eq] at waits
    obtain ⟨small, loading, empty⟩ := sound.binaries ref before
    have old : (view.rebuildHistoryList rawList).row ref =
        if ref ∈ view.dropped rawList then { view.row ref with imageObjectUrl := none } else view.row ref := by
      rw [eq]
      refine (if_neg (Nat.not_le.mpr small)).trans ?_
      rw [leftRow, revoked_dropped sound]
    refine ⟨small.trans_le grown, ?_, ?_⟩
    · rw [old]
      split <;> exact loading
    · rw [urlOf, old]
      split
      · rfl
      · exact empty
  · rw [eq]
    exact sound.once

end Rebuild

/-! ## Images -/

theorem ensureBinaryLoaded_cases (ref : Nat) :
    view.ensureBinaryLoaded ref = view ∨
      ((view.row ref).binaryLoading = false ∧ view.urlOf ref = none ∧
        view.ensureBinaryLoaded ref = view.awaitBinary ref) := by
  unfold ensureBinaryLoaded
  dsimp only
  split
  · exact .inl rfl
  · rename_i free
    simp only [not_or, Bool.not_eq_true, Option.isSome_eq_false_iff, Option.isNone_iff_eq_none] at free
    split
    · exact .inl rfl
    · split
      · exact .inl rfl
      · exact .inr ⟨free.2.1, free.2.2, rfl⟩

@[simp] theorem idOf_awaitBinary (ref other : Nat) : (view.awaitBinary ref).idOf other = view.idOf other :=
  @field_update view _ (fun row => row.id) ref other (fun row => { row with binaryLoading := true }) rfl

@[simp] theorem urlOf_awaitBinary (ref other : Nat) : (view.awaitBinary ref).urlOf other = view.urlOf other :=
  @field_update view _ Row.imageObjectUrl ref other (fun row => { row with binaryLoading := true }) rfl

theorem binaryLoading_awaitBinary (ref other : Nat) :
    ((view.awaitBinary ref).row other).binaryLoading = (decide (other = ref) || (view.row other).binaryLoading) := by
  by_cases here : other = ref
  · subst here
    simp [awaitBinary]
  · simp [awaitBinary, here, row_update_of_ne]

theorem held_of_urlOf {next : View} (historyList : next.historyList = view.historyList)
    (url : ∀ ref ∈ view.historyList, next.urlOf ref = view.urlOf ref) : next.held = view.held := by
  rw [View.held, View.held, historyList]
  exact List.filterMap_congr url

theorem Effect.of_same {next : View} (created : next.created = view.created) (revoked : next.revoked = view.revoked)
    (held : next.held = view.held) : Effect view next none where
  grows := created.ge
  urls := by simp [created, revoked, held, strayed]
  held url shown := .inl (held ▸ shown)

theorem effect_ensureBinaryLoaded (ref : Nat) : Effect view (view.ensureBinaryLoaded ref) none := by
  rcases @ensureBinaryLoaded_cases view ref with same | ⟨-, -, eq⟩
  · rw [same]
    exact quiet_self.effect
  · rw [eq]
    exact Effect.of_same rfl rfl (held_of_urlOf rfl fun other _ => urlOf_awaitBinary ref other)

theorem sound_awaitBinary {ref : Nat} (sound : Sound view) (small : ref < view.rows)
    (free : (view.row ref).binaryLoading = false) (empty : view.urlOf ref = none) :
    Sound (view.awaitBinary ref) where
  ids := by
    rw [funext (idOf_awaitBinary ref)]
    exact sound.ids
  listed := sound.listed
  details := sound.details
  binaries other waits := by
    rw [urlOf_awaitBinary, binaryLoading_awaitBinary]
    rcases List.mem_append.mp waits with before | here
    · obtain ⟨small, loading, empty⟩ := sound.binaries other before
      exact ⟨small, by simp [loading], empty⟩
    · obtain rfl := List.mem_singleton.mp here
      exact ⟨small, by simp, empty⟩
  once := by
    -- a row that waits already is marked
    refine List.Nodup.append sound.once (List.nodup_singleton ref) fun other before here => ?_
    obtain rfl := List.mem_singleton.mp here
    have loading := (sound.binaries other before).2.1
    rw [free] at loading
    cases loading

theorem sound_ensureBinaryLoaded {ref : Nat} (sound : Sound view) (small : ref < view.rows) :
    Sound (view.ensureBinaryLoaded ref) := by
  rcases @ensureBinaryLoaded_cases view ref with same | ⟨free, empty, eq⟩
  · rwa [same]
  · rw [eq]
    exact sound_awaitBinary sound small free empty

section BinaryLoaded

variable {i ref : Nat} (sound : Sound view) (waits : view.binaries[i]? = some ref)
include sound waits

/-- The row has no object URL when its image comes, so that the revocation before finds nothing. -/
theorem binaryLoaded_eq (blob : Bool) : binaryLoaded { view with binaries := view.binaries.eraseIdx i } ref blob =
    { view with
      row := Function.update view.row ref
        { view.row ref with imageObjectUrl := if blob then some view.created else none, binaryLoading := false }
      created := view.created + blob.toNat
      binaries := view.binaries.eraseIdx i } := by
  have empty : (view.row ref).imageObjectUrl = none := (sound.binaries ref (List.mem_of_getElem? waits)).2.2
  cases blob with
  | false => simp [View.binaryLoaded, update, empty.symm]
  | true => simp [View.binaryLoaded, revokeRowObjectUrl, update, empty]

theorem urlOf_binaryLoaded (blob : Bool) (other : Nat) :
    (binaryLoaded { view with binaries := view.binaries.eraseIdx i } ref blob).urlOf other =
      if other = ref ∧ blob then some view.created else view.urlOf other := by
  rw [binaryLoaded_eq sound waits, urlOf]
  by_cases here : other = ref
  · have empty := (sound.binaries ref (List.mem_of_getElem? waits)).2.2
    subst here
    cases blob <;> simp [empty]
  · simp [here, urlOf]

/-- No other call waits for the image of this row. -/
theorem ne_of_mem_eraseIdx {other : Nat} (member : other ∈ view.binaries.eraseIdx i) :
    other ∈ view.binaries ∧ other ≠ ref := by
  obtain ⟨j, small, differ, at_j⟩ := List.mem_eraseIdx_iff_getElem.mp member
  refine ⟨List.mem_of_mem_eraseIdx member, fun same => differ ?_⟩
  obtain ⟨bound, at_i⟩ := List.getElem?_eq_some_iff.mp waits
  exact (sound.once.getElem_inj_iff).mp (at_j.trans (same.trans at_i.symm))

theorem sound_binaryLoaded (blob : Bool) :
    Sound (binaryLoaded { view with binaries := view.binaries.eraseIdx i } ref blob) := by
  have eq := binaryLoaded_eq sound waits blob
  constructor
  case ids =>
    have same : (binaryLoaded { view with binaries := view.binaries.eraseIdx i } ref blob).idOf = view.idOf := by
      funext other
      rw [eq, idOf, idOf]
      by_cases here : other = ref
      · subst here
        simp
      · simp [here]
    rw [same, eq]
    exact sound.ids
  case listed => rw [eq]; exact sound.listed
  case details => rw [eq]; exact sound.details
  case binaries =>
    intro other member
    rw [urlOf_binaryLoaded sound waits]
    rw [eq] at member ⊢
    obtain ⟨before, differ⟩ := ne_of_mem_eraseIdx sound waits member
    simpa [differ] using sound.binaries other before
  case once => rw [eq]; exact sound.once.eraseIdx i

theorem effect_binaryLoaded (blob : Bool) :
    Effect view (binaryLoaded { view with binaries := view.binaries.eraseIdx i } ref blob)
      (if blob then some ref else none) := by
  have eq := binaryLoaded_eq sound waits blob
  have url := urlOf_binaryLoaded sound waits blob
  generalize binaryLoaded { view with binaries := view.binaries.eraseIdx i } ref blob = next at eq url
  have created : next.created = view.created + blob.toNat := by rw [eq]
  have revoked : next.revoked = view.revoked := by rw [eq]
  have historyList : next.historyList = view.historyList := by rw [eq]
  cases blob with
  | false =>
    exact Effect.of_same created revoked (held_of_urlOf historyList fun other _ => by simpa using url other)
  | true =>
    have others : ∀ other, other ≠ ref → next.urlOf other = view.urlOf other := fun other differ => by
      simpa [differ] using url other
    simp only [Bool.toNat_true] at created
    -- the row may have been replaced while it waited, and then its URL is astray
    by_cases listed : ref ∈ view.historyList
    · have empty := (sound.binaries ref (List.mem_of_getElem? waits)).2.2
      have here : next.urlOf ref = some view.created := by simpa using url ref
      -- the row with its new URL, and the other rows
      have before : (view.held).Perm ((view.historyList.erase ref).filterMap view.urlOf) := by
        have perm := (List.perm_cons_erase listed).filterMap view.urlOf
        rwa [List.filterMap_cons_none empty] at perm
      have rest : (view.historyList.erase ref).filterMap next.urlOf =
          (view.historyList.erase ref).filterMap view.urlOf :=
        List.filterMap_congr fun other member => others other ((sound.nodup.mem_erase_iff).mp member).1
      have after : next.held.Perm (view.created :: view.held) := by
        have perm := (List.perm_cons_erase listed).filterMap next.urlOf
        rw [List.filterMap_cons_some here, rest] at perm
        rw [View.held, historyList]
        exact perm.trans (before.symm.cons _)
      refine ⟨by omega, ?_, fun shown member => ?_⟩
      · rw [created, revoked]
        simp only [if_true, strayed, if_pos listed, List.append_nil, Nat.add_sub_cancel_left, List.range'_one, List.append_assoc]
        exact (after.trans (List.perm_append_singleton _ _).symm).append_left _
      · exact (List.mem_cons.mp (after.subset member)).elim (fun new => .inr ⟨rfl, new⟩) .inl
    · have held : next.held = view.held :=
        held_of_urlOf historyList fun other member => others other fun same => listed (same ▸ member)
      refine ⟨by omega, ?_, fun shown member => .inl (held ▸ member)⟩
      rw [created, revoked, held]
      simp [strayed, listed]

end BinaryLoaded

theorem effect_downloaded (blob : Bool) : Effect view (view.downloaded blob) none := by
  unfold View.downloaded
  split
  · refine ⟨Nat.le_succ _, ?_, fun url shown => .inl shown⟩
    simp only [strayed, Nat.add_sub_cancel_left, List.range'_one, List.append_nil, List.append_assoc]
    exact (@List.perm_append_comm _ _ view.held).append_left _
  · exact quiet_self.effect

theorem sound_downloaded (sound : Sound view) (blob : Bool) : Sound (view.downloaded blob) := by
  unfold View.downloaded
  split
  · exact ⟨sound.ids, sound.listed, sound.details, sound.binaries, sound.once⟩
  · exact sound

/-! ## A step -/

theorem sound_revokeAllObjectUrls (sound : Sound view) : Sound view.revokeAllObjectUrls := by
  have eq : view.revokeAllObjectUrls = _ := revokeObjectUrls_eq sound.nodup
  constructor
  case ids =>
    have same : view.revokeAllObjectUrls.idOf = view.idOf := by
      funext ref
      rw [eq, idOf, idOf]
      dsimp only
      split <;> rfl
    rw [same, eq]
    exact sound.ids
  case listed => rw [eq]; exact sound.listed
  case details => rw [eq]; exact sound.details
  case binaries =>
    rw [eq]
    intro ref waits
    obtain ⟨small, loading, empty⟩ := sound.binaries ref waits
    simp only [urlOf] at empty ⊢
    split
    · exact ⟨small, loading, rfl⟩
    · exact ⟨small, loading, empty⟩
  case once => rw [eq]; exact sound.once

theorem quiet_left : Quiet view { view.clearRefreshTimer with subscribed := false } :=
  quiet_clearRefreshTimer.trans (quiet_of_row rfl rfl rfl rfl rfl rfl rfl)

theorem sound_onBeforeUnmount (sound : Sound view) : Sound view.onBeforeUnmount :=
  sound_revokeAllObjectUrls (quiet_left.sound sound)

theorem effect_onBeforeUnmount (sound : Sound view) :
    view.onBeforeUnmount.held = [] ∧ Effect view view.onBeforeUnmount none := by
  obtain ⟨cleared, effect⟩ := effect_revokeAllObjectUrls (quiet_left.sound sound).nodup
  exact ⟨cleared, quiet_left.then_effect effect⟩

theorem quiet_handleExpandChange_or (ref : Nat) (expandedRows : List Nat) (listed : ref ∈ view.historyList) :
    Quiet view (view.handleExpandChange ref expandedRows) ∨
      view.handleExpandChange ref expandedRows = view.ensureBinaryLoaded ref := by
  unfold handleExpandChange ensureRowVisual
  dsimp only
  split
  · split
    · exact .inr rfl
    · refine .inl ((@quiet_update view ref (fun row => { row with detailLoading := true })
        rfl rfl rfl).trans ⟨rfl, rfl, rfl, rfl, rfl, fun other waits => ?_, fun _ => rfl, fun _ => rfl, fun _ => rfl⟩)
      refine (List.mem_append.mp waits).imp id fun here => ?_
      rw [List.mem_singleton.mp here]
      exact listed
  · exact .inl quiet_self

theorem quiet_detailLoaded {ref : Nat} {answer : Option Item} (own : ∀ detail ∈ answer, detail.id = (view.row ref).id) :
    ∃ middle, Quiet view middle ∧ view.detailLoaded ref answer = middle.ensureBinaryLoaded ref := by
  refine ⟨_, ?_, rfl⟩
  refine Quiet.trans ?_ (quiet_update ref rfl rfl rfl)
  cases answer with
  | none => exact quiet_self
  | some detail => exact quiet_update ref (own detail rfl) rfl rfl

/-- What a step comes to that leaves the accounts in order. -/
def Orderly (view next : View) (kept : Option Nat) : Prop := Sound next ∧ Effect view next kept

theorem Quiet.orderly {next : View} (quiet : Quiet view next) (sound : Sound view) : Orderly view next none :=
  ⟨quiet.sound sound, quiet.effect⟩

theorem Quiet.then_orderly {middle next : View} (quiet : Quiet view middle) (orderly : Orderly middle next none) :
    Orderly view next none :=
  ⟨orderly.1, quiet.then_effect orderly.2⟩

theorem Orderly.then_quiet {middle next : View} {kept : Option Nat} (orderly : Orderly view middle kept)
    (quiet : Quiet middle next) : Orderly view next kept :=
  ⟨quiet.sound orderly.1, orderly.2.then_quiet quiet⟩

theorem orderly_ensureBinaryLoaded {ref : Nat} (sound : Sound view) (small : ref < view.rows) :
    Orderly view (view.ensureBinaryLoaded ref) none :=
  ⟨sound_ensureBinaryLoaded sound small, effect_ensureBinaryLoaded ref⟩

theorem orderly_historyLoaded {answer : Option (List Item × Nat)} (load : Load) (sound : Sound view)
    (distinct : ∀ answered ∈ answer, (answered.1.map Item.id).Nodup) :
    Orderly view (view.historyLoaded load answer) none := by
  cases answer with
  | none => exact (quiet_endLoad load).orderly sound
  | some answered =>
    have own := distinct answered rfl
    have rebuilt : Orderly view (view.rebuildHistoryList answered.1) none :=
      ⟨sound_rebuildHistoryList sound own, effect_rebuildHistoryList sound own⟩
    have counted : Quiet (view.rebuildHistoryList answered.1)
        { view.rebuildHistoryList answered.1 with total := answered.2 } :=
      quiet_of_row rfl rfl rfl rfl rfl rfl rfl
    exact rebuilt.then_quiet (counted.trans (quiet_endLoad load))

theorem orderly_detailLoaded {ref : Nat} {answer : Option Item} (sound : Sound view) (small : ref < view.rows)
    (own : ∀ detail ∈ answer, detail.id = (view.row ref).id) : Orderly view (view.detailLoaded ref answer) none := by
  obtain ⟨middle, quiet, eq⟩ := quiet_detailLoaded own
  rw [eq]
  exact quiet.then_orderly (orderly_ensureBinaryLoaded (quiet.sound sound) (quiet.rows ▸ small))

theorem orderly_perform {step : Step} (sound : Sound view) (carries : view.carries step = true) :
    Orderly view (view.perform step) (view.kept step) := by
  cases step with
  | statusChange status | sizeChange size | currentChange page | refresh | timeout timer =>
    refine Quiet.orderly ?_ sound
    exact quiet_of_row rfl rfl rfl rfl rfl rfl rfl
  | expandChange ref expandedRows =>
    have listed : ref ∈ view.historyList := (of_decide_eq_true carries).2
    rcases quiet_handleExpandChange_or ref expandedRows listed with quiet | eq
    · exact quiet.orderly sound
    · rw [perform, eq]
      exact orderly_ensureBinaryLoaded sound (sound.listed ref listed)
  | download ref => exact (quiet_handleDownload ref).orderly sound
  | cancel ref => exact (quiet_handleCancel ref).orderly sound
  | retry ref => exact (quiet_handleRetry ref).orderly sound
  | delete ref => exact (quiet_handleDelete ref).orderly sound
  | confirmed i agreed =>
    have taken : Quiet view { view with confirms := view.confirms.eraseIdx i } :=
      quiet_of_row rfl rfl rfl rfl rfl rfl rfl
    simp only [perform]
    split
    · exact (taken.trans (quiet_confirmed _ _ _)).orderly sound
    · exact quiet_self.orderly sound
  | socketEvent type => exact (quiet_handleTaskSocketEvent type).orderly sound
  | historyLoaded i answer =>
    have taken : Quiet view { view with loads := view.loads.eraseIdx i } := quiet_of_row rfl rfl rfl rfl rfl rfl rfl
    have distinct := (of_decide_eq_true carries).2
    simp only [perform]
    split
    · refine taken.then_orderly (orderly_historyLoaded _ (taken.sound sound) fun answered eq => ?_)
      rw [Option.mem_def.mp eq] at distinct
      exact of_decide_eq_true distinct
    · exact quiet_self.orderly sound
  | detailLoaded i answer =>
    -- only here the waits for a detail change
    have taken : Quiet view { view with details := view.details.eraseIdx i } :=
      ⟨rfl, rfl, rfl, rfl, rfl, fun _ waits => .inl (List.mem_of_mem_eraseIdx waits), fun _ => rfl, fun _ => rfl,
        fun _ => rfl⟩
    simp only [perform]
    split
    · rename_i ref waits
      have own : ∀ detail ∈ answer, detail.id = (view.row ref).id := by
        simp only [View.carries, waits, Option.any_some, Option.all_eq_true] at carries
        exact fun detail eq => of_decide_eq_true (carries detail eq)
      exact taken.then_orderly (orderly_detailLoaded (taken.sound sound)
        (sound.details ref (List.mem_of_getElem? waits)) own)
    · exact quiet_self.orderly sound
  | binaryLoaded i blob =>
    simp only [perform]
    split
    · rename_i ref waits
      have kept : view.kept (.binaryLoaded i blob) = if blob then some ref else none := by
        cases blob
        · rfl
        · exact waits
      rw [kept]
      exact ⟨sound_binaryLoaded sound waits blob, effect_binaryLoaded sound waits blob⟩
    · rename_i waits
      have kept : view.kept (.binaryLoaded i blob) = none := by
        cases blob
        · rfl
        · exact waits
      rw [kept]
      exact quiet_self.orderly sound
  | downloaded i blob =>
    have taken : Quiet view { view with downloads := view.downloads.eraseIdx i } :=
      quiet_of_row rfl rfl rfl rfl rfl rfl rfl
    exact taken.then_orderly ⟨sound_downloaded (taken.sound sound) blob, effect_downloaded blob⟩
  | actionAnswered i succeeded =>
    have taken : Quiet view { view with actions := view.actions.eraseIdx i } :=
      quiet_of_row rfl rfl rfl rfl rfl rfl rfl
    simp only [perform]
    split
    · exact (taken.trans (quiet_actionAnswered _ _ _)).orderly sound
    · exact quiet_self.orderly sound
  | unmount => exact ⟨sound_onBeforeUnmount sound, (effect_onBeforeUnmount sound).2⟩

/-! ## The refresh timer -/

/-- Whether the page is open, the timers that are set and the one that the view knows. -/
def clock (view : View) : Bool × List Nat × Option Nat := (view.subscribed, view.timeouts, view.refreshTimer)

structure Wound (view : View) : Prop where
  timer : view.timeouts = view.refreshTimer.toList
  quiet : view.subscribed = false → view.timeouts = []

theorem clock_foldl {α : Type} (act : View → α → View) (same : ∀ view part, (act view part).clock = view.clock)
    (parts : List α) : (parts.foldl act view).clock = view.clock := by
  induction parts generalizing view with
  | nil => rfl
  | cons first rest ih => exact ih.trans (same view first)

theorem clock_revokeObjectUrls (refs : List Nat) : (view.revokeObjectUrls refs).clock = view.clock :=
  clock_foldl revokeRowObjectUrl (fun _ _ => rfl) refs

theorem clock_rebuildHistoryList (rawList : List Item) : (view.rebuildHistoryList rawList).clock = view.clock :=
  (clock_foldl addRow (fun _ _ => rfl) _).trans (clock_revokeObjectUrls _)

theorem clock_endLoad (load : Load) : (view.endLoad load).clock = view.clock := by
  unfold endLoad
  dsimp only
  split <;> rfl

theorem clock_historyLoaded (load : Load) (answer : Option (List Item × Nat)) :
    (view.historyLoaded load answer).clock = view.clock := by
  cases answer with
  | none => exact clock_endLoad load
  | some answered => exact (clock_endLoad load).trans (clock_rebuildHistoryList answered.1)

theorem clock_ensureBinaryLoaded (ref : Nat) : (view.ensureBinaryLoaded ref).clock = view.clock := by
  rcases @ensureBinaryLoaded_cases view ref with same | ⟨-, -, eq⟩
  · rw [same]
  · rw [eq]
    rfl

theorem clock_detailLoaded (ref : Nat) (answer : Option Item) :
    (view.detailLoaded ref answer).clock = view.clock := by
  refine (clock_ensureBinaryLoaded ref).trans ?_
  cases answer <;> rfl

theorem clock_binaryLoaded (ref : Nat) (blob : Bool) : (view.binaryLoaded ref blob).clock = view.clock := by
  cases blob <;> rfl

theorem clock_handleExpandChange (ref : Nat) (expandedRows : List Nat) :
    (view.handleExpandChange ref expandedRows).clock = view.clock := by
  unfold handleExpandChange ensureRowVisual
  dsimp only
  split
  · split
    · exact clock_ensureBinaryLoaded ref
    · rfl
  · rfl

theorem clock_handleDownload (ref : Nat) : (view.handleDownload ref).clock = view.clock := by
  unfold handleDownload
  dsimp only
  split
  · rfl
  · split <;> rfl

theorem clock_actionAnswered (action : ActionType) (ref : Nat) (succeeded : Bool) :
    (view.actionAnswered action ref succeeded).clock = view.clock := by
  unfold View.actionAnswered
  split
  · rfl
  · cases action <;> rfl

theorem clock_perform {step : Step} (event : ∀ type, step ≠ .socketEvent type)
    (timeout : ∀ timer, step ≠ .timeout timer) (unmount : step ≠ .unmount) :
    (view.perform step).clock = view.clock := by
  cases step with
  | statusChange | sizeChange | currentChange | refresh => rfl
  | expandChange ref expandedRows => exact clock_handleExpandChange ref expandedRows
  | download ref => exact clock_handleDownload ref
  | cancel ref => unfold perform handleCancel; dsimp only; split <;> rfl
  | retry ref => unfold perform handleRetry; dsimp only; split <;> rfl
  | delete ref => unfold perform handleDelete; dsimp only; split <;> rfl
  | confirmed i agreed =>
    simp only [perform]
    split
    · unfold View.confirmed
      split <;> rfl
    · rfl
  | socketEvent type => exact absurd rfl (event type)
  | timeout timer => exact absurd rfl (timeout timer)
  | historyLoaded i answer =>
    simp only [perform]
    split
    · exact clock_historyLoaded _ answer
    · rfl
  | detailLoaded i answer =>
    simp only [perform]
    split
    · exact clock_detailLoaded _ answer
    · rfl
  | binaryLoaded i blob =>
    simp only [perform]
    split
    · exact clock_binaryLoaded _ blob
    · rfl
  | downloaded i blob => cases blob <;> rfl
  | actionAnswered i succeeded =>
    simp only [perform]
    split
    · exact clock_actionAnswered _ _ succeeded
    · rfl
  | unmount => exact absurd rfl unmount

theorem Wound.of_clock {next : View} (wound : Wound view) (same : next.clock = view.clock) : Wound next := by
  simp only [clock, Prod.mk.injEq] at same
  obtain ⟨subscribed, timeouts, refreshTimer⟩ := same
  exact ⟨timeouts.trans (refreshTimer ▸ wound.timer), fun closed => timeouts.trans (wound.quiet (subscribed ▸ closed))⟩

theorem clearRefreshTimer_timeouts (wound : Wound view) : view.clearRefreshTimer.timeouts = [] ∧
    view.clearRefreshTimer.refreshTimer = none := by
  have timer := wound.timer
  unfold clearRefreshTimer
  cases set : view.refreshTimer with
  | none => exact ⟨by rw [timer, set]; rfl, set⟩
  | some id => exact ⟨by simp [timer, set], rfl⟩

theorem clock_onBeforeUnmount (wound : Wound view) : view.onBeforeUnmount.clock = (false, [], none) := by
  obtain ⟨timeouts, refreshTimer⟩ := clearRefreshTimer_timeouts wound
  refine (clock_revokeObjectUrls _).trans ?_
  simp [clock, timeouts, refreshTimer]

theorem wound_perform {step : Step} (wound : Wound view) (carries : view.carries step = true) :
    Wound (view.perform step) := by
  by_cases event : ∃ type, step = .socketEvent type
  · obtain ⟨type, rfl⟩ := event
    simp only [perform, handleTaskSocketEvent, scheduleSocketRefresh]
    split
    · exact wound
    · split
      · exact wound
      · -- the page is open, and no timer is set yet
        rename_i free
        simp only [Bool.or_eq_true, not_or, Bool.not_eq_true, Option.isSome_eq_false_iff,
          Option.isNone_iff_eq_none] at free
        refine ⟨by simp [wound.timer, free.2], fun closed => ?_⟩
        exact absurd (carries.symm.trans closed) (by decide)
  by_cases timeout : ∃ timer, step = .timeout timer
  · obtain ⟨timer, rfl⟩ := timeout
    have due : timer ∈ view.timeouts := of_decide_eq_true carries
    -- the timer that fires is the one there is
    have none : view.timeouts.erase timer = [] := by
      rw [wound.timer] at due ⊢
      rw [Option.mem_toList.mp due]
      simp
    exact ⟨none, fun _ => none⟩
  by_cases unmount : step = .unmount
  · subst unmount
    have clock := clock_onBeforeUnmount wound
    simp only [View.clock, Prod.mk.injEq] at clock
    obtain ⟨-, timeouts, refreshTimer⟩ := clock
    exact ⟨by rw [perform, timeouts, refreshTimer]; rfl, fun _ => timeouts⟩
  · exact wound.of_clock (clock_perform (not_exists.mp event) (not_exists.mp timeout) unmount)

/-- Only leaving the page closes it. -/
theorem subscribed_perform {step : Step} (unmount : step ≠ .unmount) :
    (view.perform step).subscribed = view.subscribed := by
  by_cases event : ∃ type, step = .socketEvent type
  · obtain ⟨type, rfl⟩ := event
    simp only [perform, handleTaskSocketEvent, scheduleSocketRefresh]
    split
    · rfl
    · split <;> rfl
  by_cases timeout : ∃ timer, step = .timeout timer
  · obtain ⟨timer, rfl⟩ := timeout
    rfl
  · exact congrArg Prod.fst (clock_perform (not_exists.mp event) (not_exists.mp timeout) unmount)

end View

/-! ## Runs -/

theorem sound_after (steps : List Step) : Sound (after steps) ∧ Wound (after steps) := by
  induction steps with
  | nil =>
    refine ⟨⟨List.nodup_nil, ?_, ?_, ?_, List.nodup_nil⟩, rfl, fun _ => rfl⟩ <;> exact fun _ member => nomatch member
  | cons step past ih =>
    rw [after, View.step]
    split
    · rename_i carries
      exact ⟨(orderly_perform ih.1 carries).1, wound_perform ih.2 carries⟩
    · exact ih

theorem kept_eq_none {view : View} {step : Step} (carries : view.carries step = false) : view.kept step = none := by
  unfold kept
  split
  · rename_i i
    exact List.getElem?_eq_none (Nat.not_lt.mp (of_decide_eq_false carries))
  · rfl

/-- What one more step adds to the accounts, whether it comes or not. -/
theorem effect_step {view : View} (step : Step) (sound : Sound view) :
    Effect view (view.step step) (view.kept step) := by
  unfold View.step
  split
  · rename_i carries
    exact (orderly_perform sound carries).2
  · rename_i carries
    rw [kept_eq_none (Bool.eq_false_iff.mpr carries)]
    exact quiet_self.effect

theorem urls_perm (steps : List Step) :
    ((after steps).revoked ++ (after steps).held ++ strays steps).Perm (List.range (after steps).created) := by
  induction steps with
  | nil => exact List.Perm.refl _
  | cons step past ih =>
    have effect := effect_step step (sound_after past).1
    have grows : (after past).created ≤ (after (step :: past)).created := effect.grows
    -- the URLs made before, and then those of this step
    have range := List.range'_append_1 (s := 0) (m := (after past).created)
      (n := (after (step :: past)).created - (after past).created)
    rw [Nat.zero_add, Nat.add_sub_of_le grows, ← List.range_eq_range', ← List.range_eq_range'] at range
    rw [← range, strays, ← List.append_assoc]
    refine (effect.urls.append_right _).trans ?_
    rw [List.append_assoc _ (List.range' _ _)]
    refine (List.perm_append_comm.append_left _).trans ?_
    rw [← List.append_assoc]
    exact ih.append_right _

theorem held_late (steps : List Step) (closed : (after steps).subscribed = false) :
    ∀ url ∈ (after steps).held, url ∈ late steps := by
  induction steps with
  | nil => cases closed
  | cons step past ih =>
    intro url shown
    have effect := effect_step step (sound_after past).1
    by_cases unmount : step = .unmount ∧ (after past).carries step = true
    · obtain ⟨rfl, carries⟩ := unmount
      rw [after, View.step, if_pos carries] at shown
      -- leaving the page revokes all that is held
      rw [perform, (effect_onBeforeUnmount (sound_after past).1).1] at shown
      cases shown
    · have before : (after past).subscribed = false := by
        rw [after, View.step] at closed
        split at closed
        · rename_i carries
          exact (subscribed_perform fun same => unmount ⟨same, carries⟩).symm.trans closed
        · exact closed
      rw [late]
      -- what is held now was held before, or is of an image that has just come
      rcases effect.held url shown with kept | ⟨kept, rfl⟩
      · split
        · exact List.mem_cons_of_mem _ (ih before url kept)
        · exact ih before url kept
      · rw [if_pos ⟨before, kept⟩]
        exact List.mem_cons_self

theorem accounted (steps : List Step) : Accounted steps where
  urls := urls_perm steps
  left := held_late steps
  timer := (sound_after steps).2.timer
  quiet := (sound_after steps).2.quiet

/-- A reload between the call for an image and its answer: nobody revokes the URL any more. -/
example :
    let page := Step.historyLoaded 0 (some ([⟨1, "success", "images/1.png"⟩], 1))
    strays [.unmount, .binaryLoaded 0 true, page, .refresh,
      .detailLoaded 0 (some ⟨1, "success", "images/1.png"⟩), .expandChange 0 [0], page] = [0] := by
  decide +kernel

end Text2Image.imageHistory

import Mathlib.Logic.Function.Basic
import Text2Image.Frontend.ImageGenerator

/-! The history view of the page: a list of rows, reloaded as a whole, whose images are fetched on demand
and held as object URLs. A row is an object that goes on to exist when it is no longer listed, since
handlers that wait for an answer still hold it. Messages to the user and what else a row carries than the
fields read here are left out.
-/

set_option autoImplicit false

namespace Text2Image.imageHistory

open generator

def canDownloadImageTask (status : String) : Bool := normalizeImageStatus status = "success"

def isHttpUrl (url : String) : Bool := url.startsWith "http://" || url.startsWith "https://"

inductive ActionType where
  | cancel
  | retry
  | delete
  deriving DecidableEq, Repr

/-- A record of a page of the listing, and of an answer with the details. -/
structure Item where
  id : Int
  status : String
  imageUrl : String
  deriving DecidableEq, Repr

/-- `imageObjectUrl` is the number of the object URL that the row holds. -/
structure Row extends Item where
  detailLoaded : Bool := false
  detailLoading : Bool := false
  binaryLoading : Bool := false
  actionType : Option ActionType := none
  imageObjectUrl : Option Nat := none
  deriving DecidableEq, Repr

namespace Row

def normalizeRow (item : Item) (previousRow : Option Row) : Row :=
  { item with
    detailLoaded := previousRow.any Row.detailLoaded
    imageObjectUrl := previousRow.bind Row.imageObjectUrl }

inductive ImageUrl where
  | http (url : String)
  | object (url : Nat)
  | empty
  deriving DecidableEq, Repr

def buildImageUrl (row : Row) : ImageUrl :=
  if isHttpUrl row.imageUrl then .http row.imageUrl
  else
    match row.imageObjectUrl with
    | some url => .object url
    | none => .empty

end Row

/-- A call of `loadHistory` that waits for its page. With an `action` it is the last part of a handler
that holds this row.
-/
structure Load where
  silent : Bool
  status : String
  page : Int
  size : Nat
  action : Option Nat := none
  deriving DecidableEq, Repr

/-- Rows and object URLs are numbered in the order of their creation, and so are timers. What is under way
comes last: the timers that are set and the calls that wait, each with the row it holds.
-/
structure View where
  row : Nat → Row := fun _ => { id := 0, status := "", imageUrl := "" }
  rows : Nat := 0
  historyList : List Nat := []
  loading : Bool := false
  currentPage : Int := 1
  pageSize : Nat := 10
  total : Nat := 0
  selectedStatus : String := "all"
  subscribed : Bool := false
  refreshTimer : Option Nat := none
  timers : Nat := 0
  created : Nat := 0
  revoked : List Nat := []
  timeouts : List Nat := []
  loads : List Load := []
  details : List Nat := []
  binaries : List Nat := []
  downloads : List Nat := []
  confirms : List (ActionType × Nat) := []
  actions : List (ActionType × Nat) := []

namespace View

variable (view : View)

def update (ref : Nat) (change : Row → Row) : View :=
  { view with row := Function.update view.row ref (change (view.row ref)) }

/-! ## Rows and their object URLs -/

def revokeRowObjectUrl (ref : Nat) : View :=
  let left := { view with revoked := view.revoked ++ (view.row ref).imageObjectUrl.toList }
  left.update ref fun row => { row with imageObjectUrl := none }

def revokeObjectUrls (refs : List Nat) : View := refs.foldl revokeRowObjectUrl view

def revokeAllObjectUrls : View := view.revokeObjectUrls view.historyList

/-- The entry of `previousMap`: of rows with one id the last. -/
def previous (id : Int) : Option Nat := view.historyList.reverse.find? fun ref => (view.row ref).id = id

def addRow (row : Row) : View :=
  { view with
    row := Function.update view.row view.rows row
    rows := view.rows + 1
    historyList := view.historyList ++ [view.rows] }

/-- With its assignment to the list. -/
def rebuildHistoryList (rawList : List Item) : View :=
  let dropped := view.historyList.filter fun ref => ! rawList.any fun item => item.id = (view.row ref).id
  let left := view.revokeObjectUrls dropped
  let next := rawList.map fun item => Row.normalizeRow item ((view.previous item.id).map left.row)
  next.foldl addRow { left with historyList := [] }

/-! ## Loading the list -/

/-- Up to its call. -/
def loadHistory (silent : Bool) (action : Option Nat) : View :=
  let load : Load :=
    { silent, status := view.selectedStatus, page := view.currentPage - 1, size := view.pageSize, action }
  { view with loading := view.loading || ! silent, loads := view.loads ++ [load] }

def endAction (ref : Nat) : View := view.update ref fun row => { row with actionType := none }

/-- Its `finally`, and the end of the handler that waits for it. -/
def endLoad (load : Load) : View :=
  let left := { view with loading := view.loading && load.silent }
  match load.action with
  | some ref => left.endAction ref
  | none => left

/-- Behind that call. -/
def historyLoaded (load : Load) (answer : Option (List Item × Nat)) : View :=
  match answer with
  | some (content, totalElements) =>
    endLoad { view.rebuildHistoryList content with total := totalElements } load
  | none => view.endLoad load

def clearRefreshTimer : View :=
  match view.refreshTimer with
  | some timer => { view with timeouts := view.timeouts.erase timer, refreshTimer := none }
  | none => view

def scheduleSocketRefresh : View :=
  if view.loading || view.refreshTimer.isSome then view
  else
    let timer := view.timers + 1
    { view with timers := timer, timeouts := view.timeouts ++ [timer], refreshTimer := some timer }

def refreshTimeout : View := loadHistory { view with refreshTimer := none } true none

def handleTaskSocketEvent (type : String) : View :=
  if type ≠ "image.task.updated" then view else view.scheduleSocketRefresh

def handleStatusChange : View := loadHistory { view with currentPage := 1 } false none

def handleSizeChange : View := loadHistory { view with currentPage := 1 } false none

def handleCurrentChange : View := view.loadHistory false none

/-! ## Showing a row -/

def awaitBinary (ref : Nat) : View :=
  { view.update ref fun row => { row with binaryLoading := true } with binaries := view.binaries ++ [ref] }

/-- Up to its call; what is left of `ensureRowVisual` goes on at once when it makes none. -/
def ensureBinaryLoaded (ref : Nat) : View :=
  let row := view.row ref
  if row.id = 0 ∨ row.binaryLoading ∨ row.imageObjectUrl.isSome then view
  else if ! canDownloadImageTask row.status ∨ row.imageUrl.isEmpty then view
  else if isHttpUrl row.imageUrl then view
  else view.awaitBinary ref

def binaryLoaded (ref : Nat) (blob : Bool) : View :=
  let shown :=
    if blob then
      let left := view.revokeRowObjectUrl ref
      let url := left.created
      { left with created := url + 1 }.update ref fun row => { row with imageObjectUrl := some url }
    else view
  shown.update ref fun row => { row with binaryLoading := false }

/-- With `ensureRowDetail`. -/
def ensureRowVisual (ref : Nat) : View :=
  let row := view.row ref
  if row.id = 0 ∨ row.detailLoaded ∨ row.detailLoading then view.ensureBinaryLoaded ref
  else
    { view.update ref fun row => { row with detailLoading := true } with details := view.details ++ [ref] }

def detailLoaded (ref : Nat) (answer : Option Item) : View :=
  let shown :=
    match answer with
    | some detail => view.update ref fun row => { row with toItem := detail, detailLoaded := true }
    | none => view
  let left := shown.update ref fun row => { row with detailLoading := false }
  left.ensureBinaryLoaded ref

def handleExpandChange (ref : Nat) (expandedRows : List Nat) : View :=
  let expanded := expandedRows.any fun item => (view.row item).id = (view.row ref).id
  if expanded then view.ensureRowVisual ref else view

/-! ## The actions of a row -/

def handleDownload (ref : Nat) : View :=
  let row := view.row ref
  if row.id = 0 then view
  else
    match row.buildImageUrl with
    | .object _ => view
    | .http _ | .empty => { view with downloads := view.downloads ++ [ref] }

/-- The URL that the link needs is created and revoked at once. -/
def downloaded (blob : Bool) : View :=
  if blob then { view with created := view.created + 1, revoked := view.revoked ++ [view.created] } else view

def confirm (action : ActionType) (ref : Nat) : View :=
  { view with confirms := view.confirms ++ [(action, ref)] }

def startAction (action : ActionType) (ref : Nat) : View :=
  { view.update ref fun row => { row with actionType := some action } with
    actions := view.actions ++ [(action, ref)] }

def handleCancel (ref : Nat) : View :=
  let row := view.row ref
  if row.id = 0 ∨ row.actionType.isSome then view else view.confirm .cancel ref

def handleRetry (ref : Nat) : View :=
  let row := view.row ref
  if row.id = 0 ∨ row.actionType.isSome then view else view.startAction .retry ref

def handleDelete (ref : Nat) : View :=
  let row := view.row ref
  if row.id = 0 ∨ row.actionType.isSome ∨ ! isImageTerminalStatus row.status then view
  else view.confirm .delete ref

def confirmed (action : ActionType) (ref : Nat) (agreed : Bool) : View :=
  if agreed then view.startAction action ref else view

def actionAnswered (action : ActionType) (ref : Nat) (succeeded : Bool) : View :=
  if ! succeeded then view.endAction ref
  else
    match action with
    | .cancel => view.loadHistory false (some ref)
    | .retry => loadHistory { view with currentPage := 1 } false (some ref)
    | .delete =>
      let emptied := view.historyList.length = 1 ∧ view.currentPage > 1
      let left := { view with currentPage := if emptied then view.currentPage - 1 else view.currentPage }
      left.loadHistory false (some ref)

/-! ## Entering and leaving the page -/

def onMounted : View := { view.loadHistory false none with subscribed := true }

def onBeforeUnmount : View := revokeAllObjectUrls { view.clearRefreshTimer with subscribed := false }

/-! ## Steps -/

/-- A pending call is named by its position. -/
inductive Step where
  | statusChange (status : String)
  | sizeChange (size : Nat)
  | currentChange (page : Int)
  | refresh
  | expandChange (ref : Nat) (expandedRows : List Nat)
  | download (ref : Nat)
  | cancel (ref : Nat)
  | retry (ref : Nat)
  | delete (ref : Nat)
  | confirmed (i : Nat) (agreed : Bool)
  | socketEvent (type : String)
  | timeout (timer : Nat)
  | historyLoaded (i : Nat) (answer : Option (List Item × Nat))
  | detailLoaded (i : Nat) (answer : Option Item)
  | binaryLoaded (i : Nat) (blob : Bool)
  | downloaded (i : Nat) (blob : Bool)
  | actionAnswered (i : Nat) (succeeded : Bool)
  | unmount
  deriving DecidableEq, Repr

/-- Whether a step can come now. The user reaches the listed rows of a page that is open. A page of the
listing has no id twice, and the details are those of the task that was asked for.
-/
def carries : Step → Bool
  | .statusChange _ | .sizeChange _ | .currentChange _ | .refresh | .socketEvent _ | .unmount => view.subscribed
  | .expandChange ref _ | .download ref | .cancel ref | .retry ref | .delete ref =>
    view.subscribed ∧ ref ∈ view.historyList
  | .confirmed i _ => i < view.confirms.length
  | .timeout timer => timer ∈ view.timeouts
  | .historyLoaded i answer =>
    i < view.loads.length ∧ answer.all fun answered => (answered.1.map Item.id).Nodup
  | .detailLoaded i answer => view.details[i]?.any fun ref =>
      answer.all fun detail => detail.id = (view.row ref).id
  | .binaryLoaded i _ => i < view.binaries.length
  | .downloaded i _ => i < view.downloads.length
  | .actionAnswered i _ => i < view.actions.length

def perform : Step → View
  | .statusChange status => handleStatusChange { view with selectedStatus := status }
  | .sizeChange size => handleSizeChange { view with pageSize := size }
  | .currentChange page => handleCurrentChange { view with currentPage := page }
  | .refresh => view.loadHistory false none
  | .expandChange ref expandedRows => view.handleExpandChange ref expandedRows
  | .download ref => view.handleDownload ref
  | .cancel ref => view.handleCancel ref
  | .retry ref => view.handleRetry ref
  | .delete ref => view.handleDelete ref
  | .confirmed i agreed =>
    match view.confirms[i]? with
    | some (action, ref) => confirmed { view with confirms := view.confirms.eraseIdx i } action ref agreed
    | none => view
  | .socketEvent type => view.handleTaskSocketEvent type
  | .timeout timer => refreshTimeout { view with timeouts := view.timeouts.erase timer }
  | .historyLoaded i answer =>
    match view.loads[i]? with
    | some load => historyLoaded { view with loads := view.loads.eraseIdx i } load answer
    | none => view
  | .detailLoaded i answer =>
    match view.details[i]? with
    | some ref => detailLoaded { view with details := view.details.eraseIdx i } ref answer
    | none => view
  | .binaryLoaded i blob =>
    match view.binaries[i]? with
    | some ref => binaryLoaded { view with binaries := view.binaries.eraseIdx i } ref blob
    | none => view
  | .downloaded i blob => downloaded { view with downloads := view.downloads.eraseIdx i } blob
  | .actionAnswered i succeeded =>
    match view.actions[i]? with
    | some (action, ref) => actionAnswered { view with actions := view.actions.eraseIdx i } action ref succeeded
    | none => view
  | .unmount => view.onBeforeUnmount

/-- A step that cannot come now does nothing. -/
def step (step : Step) : View := if view.carries step then view.perform step else view

/-- The view after it was entered and some steps, newest first. -/
def after : List Step → View
  | [] => onMounted {}
  | step :: past => (after past).step step

end View

end Text2Image.imageHistory

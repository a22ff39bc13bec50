import Mathlib.Data.List.Nodup
/-!
# The collection of data viewers

`DataViewerCollection`. A name is a C string, of which an address and the
text that stands there matter: `GetViewerFromCollection` compares texts,
`UnregisterViewer` compares addresses.
-/

namespace ClientTelemetry

/-- A `const char*` that is not null, with what it points to. -/
structure CString where
  address : ℕ
  text : String

/-- **The calls that change the collection**; `none` is `nullptr`. -/
inductive ViewerCall (ν : Type*) where
  | registerViewer (dataViewer : Option ν)
  | unregisterViewer (viewerName : Option CString)
  | unregisterAllViewers

namespace DataViewerCollection

variable {ν : Type*} (getName : ν → CString) (viewers : List ν)

/-- `GetViewerFromCollection`. -/
def getViewerFromCollection : Option CString → Except String (Option ν)
  | none => .error "nullptr passed for viewer name"
  | some viewerName => .ok (viewers.find? fun viewer => (getName viewer).text = viewerName.text)

/-- `IsViewerRegistered`. -/
def isViewerRegistered (viewerName : Option CString) : Except String Bool :=
  (getViewerFromCollection getName viewers viewerName).map Option.isSome

/-- `RegisterViewer`: what is thrown, and the collection afterwards. -/
def registerViewer : Option ν → Except String Unit × List ν
  | none => (.error "nullptr passed for data viewer", viewers)
  | some dataViewer =>
    match getViewerFromCollection getName viewers (some (getName dataViewer)) with
    | .error message => (.error message, viewers)
    | .ok (some _) =>
      (.error ("Viewer: '" ++ (getName dataViewer).text ++ "' is already registered"), viewers)
    | .ok none => (.ok (), viewers ++ [dataViewer])

/-- `UnregisterViewer`. The pointers are compared, not the texts. -/
def unregisterViewer : Option CString → Except String Unit × List ν
  | none => (.error "nullptr passed for viewer name", viewers)
  | some viewerName =>
    if viewers.any fun viewer => (getName viewer).address = viewerName.address then
      (.ok (), viewers.eraseP fun viewer => (getName viewer).address = viewerName.address)
    else (.error ("Viewer: '" ++ viewerName.text ++ "' is not currently registered"), viewers)

/-- One call. -/
def call : ViewerCall ν → Except String Unit × List ν
  | .registerViewer dataViewer => registerViewer getName viewers dataViewer
  | .unregisterViewer viewerName => unregisterViewer getName viewers viewerName
  | .unregisterAllViewers => (.ok (), [])

/-- The collection after a call. -/
def step (c : ViewerCall ν) : List ν := (call getName viewers c).2

end DataViewerCollection

end ClientTelemetry

import HyperionNg.Json
import HyperionNg.ProtoMessages

/-! The watcher of a Kodi player. Every read of its socket is parsed as one
JSON document; an object is a reply or a notification, anything else is
dropped. -/

namespace HyperionNg

namespace KODIVideoChecker

/-- The parts of Qt used: `QJsonDocument::fromJson`, with `none` for an error,
and `QString::contains` without regard to case. -/
structure QtText where
  fromJson : List UInt8 → Option Json
  contains : String → String → Bool

inductive Request
  | activePlayer
  | currentPlayingItem (player : Int)
  | checkScreensaver
  | stereoscopicMode
  | kodiVersion
  | currentPlaybackState (player : Int)
deriving DecidableEq, Repr

def Request.toJson : Request → Json
  | .activePlayer => .object [("jsonrpc", .string "2.0"),
      ("method", .string "Player.GetActivePlayers"), ("id", .double 666)]
  | .currentPlayingItem player => .object [("id", .double 667), ("jsonrpc", .string "2.0"),
      ("method", .string "Player.GetItem"),
      ("params", .object [("playerid", .double player), ("properties", .array [.string "file"])])]
  | .checkScreensaver => .object [("id", .double 668), ("jsonrpc", .string "2.0"),
      ("method", .string "XBMC.GetInfoBooleans"),
      ("params", .object [("booleans", .array [.string "System.ScreenSaverActive"])])]
  | .stereoscopicMode => .object [("jsonrpc", .string "2.0"),
      ("method", .string "GUI.GetProperties"),
      ("params", .object [("properties", .array [.string "stereoscopicmode"])]),
      ("id", .double 669)]
  | .kodiVersion => .object [("jsonrpc", .string "2.0"),
      ("method", .string "Application.GetProperties"),
      ("params", .object [("properties", .array [.string "version"])]), ("id", .double 670)]
  | .currentPlaybackState player => .object [("id", .double 671), ("jsonrpc", .string "2.0"),
      ("method", .string "Player.GetProperties"),
      ("params", .object [("playerid", .double player), ("properties", .array [.string "speed"])])]

end KODIVideoChecker

/-- The last three fields record what the checker has emitted and written so far. -/
structure KODIVideoChecker where
  grabVideo : Bool
  grabPhoto : Bool
  grabAudio : Bool
  grabMenu : Bool
  grabPause : Bool
  grabScreensaver : Bool
  previousGrabbingMode : GrabbingMode := .invalid
  previousVideoMode : VideoMode := .video2D
  currentPlaybackState : Bool := false
  currentPlayerID : Int := 0
  kodiVersion : Int := 0
  getCurrentPlaybackStateInitialized : Bool := false
  socketConnected : Bool := false
  grabbingModes : List GrabbingMode := []
  videoModes : List VideoMode := []
  written : List KODIVideoChecker.Request := []

/-- `object[key]`, with an undefined value read as null. -/
def QJsonObject.get (object : QJsonObject) (key : String) : Json :=
  (object.value key).getD .null

namespace KODIVideoChecker

/-- The checker as it is built: nothing is emitted yet, the grabbers are in 2D. -/
def create (grabVideo grabPhoto grabAudio grabMenu grabPause grabScreensaver : Bool) :
    KODIVideoChecker :=
  { grabVideo, grabPhoto, grabAudio, grabMenu, grabPause, grabScreensaver }

def write (c : KODIVideoChecker) (request : Request) : KODIVideoChecker :=
  { c with written := c.written ++ [request] }

def emitVideoMode (c : KODIVideoChecker) (mode : VideoMode) : KODIVideoChecker :=
  { c with videoModes := c.videoModes ++ [mode] }

def setGrabbingMode (c : KODIVideoChecker) (newGrabbingMode : GrabbingMode) : KODIVideoChecker :=
  if newGrabbingMode = c.previousGrabbingMode then c
  else { c with
    grabbingModes := c.grabbingModes ++ [newGrabbingMode]
    previousGrabbingMode := newGrabbingMode }

def setVideoMode (c : KODIVideoChecker) (newVideoMode : VideoMode) : KODIVideoChecker :=
  if newVideoMode = c.previousVideoMode then c
  else { c.emitVideoMode newVideoMode with previousVideoMode := newVideoMode }

/-- `setGrabbingMode(grab ? mode : GRABBINGMODE_OFF)` -/
def grab (c : KODIVideoChecker) (grab : Bool) (mode : GrabbingMode) : KODIVideoChecker :=
  c.setGrabbingMode (if grab then mode else .off)

def playing (c : KODIVideoChecker) (grab : Bool) (mode : GrabbingMode) : KODIVideoChecker :=
  if c.currentPlaybackState then c.grab grab mode else c.grab c.grabPause .pause

def activePlayer (c : KODIVideoChecker) (player : QJsonObject) : KODIVideoChecker :=
  -- always start a new video in 2D mode
  let c := c.emitVideoMode .video2D
  let type := (player.get "type").toString ""
  let prevCurrentPlayerID := c.currentPlayerID
  let c := { c with currentPlayerID := (player.get "playerid").toInt 0 }
  if !c.getCurrentPlaybackStateInitialized ∧ prevCurrentPlayerID = 0 ∧ c.currentPlayerID ≠ 0 then
    { c.write (.currentPlaybackState c.currentPlayerID) with
      getCurrentPlaybackStateInitialized := true }
  else if type = "video" then
    (c.playing c.grabVideo .video).write (.currentPlayingItem c.currentPlayerID)
  else if type = "picture" then c.playing c.grabPhoto .photo
  else if type = "audio" then c.playing c.grabAudio .audio
  else c

def activePlayers (c : KODIVideoChecker) (doc : QJsonObject) : KODIVideoChecker :=
  match doc.get "result" with
  | .array (player :: _) => c.activePlayer player.toObject
  | _ => c.grab c.grabMenu .menu

def playingItem (qt : QtText) (c : KODIVideoChecker) (doc : QJsonObject) : KODIVideoChecker :=
  let item := ((doc.get "result").toObject.get "item").toObject
  if c.kodiVersion ≥ 13 then c.write .stereoscopicMode
  else if item.contains "file" then
    let filename := (item.get "file").toString ""
    if qt.contains filename "3DSBS" || qt.contains filename "HSBS" then c.setVideoMode .video3DSBS
    else if qt.contains filename "3DTAB" || qt.contains filename "HTAB" then
      c.setVideoMode .video3DTAB
    else c.setVideoMode .video2D
  else c.grab c.grabMenu .menu

def screensaver (c : KODIVideoChecker) (doc : QJsonObject) : KODIVideoChecker :=
  let result := (doc.get "result").toObject
  if result.contains "System.ScreenSaverActive" then
    let c :=
      if (result.get "System.ScreenSaverActive").toBool false then
        c.grab c.grabScreensaver .screensaver
      else c.write .activePlayer
    if c.socketConnected ∧ c.kodiVersion = 0 then c.write .kodiVersion else c
  else c.grab c.grabMenu .menu

def stereoscopicMode (c : KODIVideoChecker) (doc : QJsonObject) : KODIVideoChecker :=
  let stereoscopicmode := ((doc.get "result").toObject.get "stereoscopicmode").toObject
  if stereoscopicmode.contains "mode" then
    let mode := (stereoscopicmode.get "mode").toString ""
    if mode = "split_vertical" then c.setVideoMode .video3DSBS
    else if mode = "split_horizontal" then c.setVideoMode .video3DTAB
    else c
  else c.grab c.grabMenu .menu

def version (c : KODIVideoChecker) (doc : QJsonObject) : KODIVideoChecker :=
  let version := ((doc.get "result").toObject.get "version").toObject
  if version.contains "major" then { c with kodiVersion := (version.get "major").toInt 0 }
  else c.grab c.grabMenu .menu

def playbackState (c : KODIVideoChecker) (doc : QJsonObject) : KODIVideoChecker :=
  let result := (doc.get "result").toObject
  if result.contains "speed" then
    { c with currentPlaybackState := (result.get "speed").toInt 0 ≠ 0 }
  else c.grab c.grabMenu .menu

def reply (qt : QtText) (c : KODIVideoChecker) (doc : QJsonObject) : KODIVideoChecker :=
  match (doc.get "id").toInt 0 with
  | 666 => c.activePlayers doc
  | 667 => c.playingItem qt doc
  | 668 => c.screensaver doc
  | 669 => c.stereoscopicMode doc
  | 670 => c.version doc
  | 671 => c.playbackState doc
  | _ => c

def notedSpeed (c : KODIVideoChecker) (doc : QJsonObject) : KODIVideoChecker :=
  let player := (((doc.get "params").toObject.get "data").toObject.get "player").toObject
  if player.contains "speed" then
    { c with
      getCurrentPlaybackStateInitialized := true
      currentPlaybackState := (player.get "speed").toInt 0 ≠ 0 }
  else c

def notified (c : KODIVideoChecker) (doc : QJsonObject) : KODIVideoChecker :=
  let method := (doc.get "method").toString ""
  if method = "Player.OnPlay" then (c.notedSpeed doc).write .activePlayer
  else if method = "Player.OnStop" then (c.grab c.grabMenu .menu).setVideoMode .video2D
  else if method = "Player.OnPause" then (c.notedSpeed doc).grab c.grabPause .pause
  else if method = "GUI.OnScreensaverActivated" then c.grab c.grabScreensaver .screensaver
  else if method = "GUI.OnScreensaverDeactivated" then c.write .activePlayer
  else if method = "Playlist.OnAdd" ∧
      (((doc.get "params").toObject.get "data").toObject.get "item").toObject.get "type" =
        .string "picture" then
    c.grab c.grabPhoto .photo
  else if method = "Input.OnInputFinished" then
    let c := (c.write .activePlayer).write .checkScreensaver
    if c.currentPlayerID ≠ 0 then c.write (.currentPlaybackState c.currentPlayerID) else c
  else c

def handle (qt : QtText) (c : KODIVideoChecker) (doc : QJsonObject) : KODIVideoChecker :=
  if doc.contains "id" then c.reply qt doc
  else if doc.contains "method" then c.notified doc
  else c

def receiveReply (qt : QtText) (c : KODIVideoChecker) (qtreply : List UInt8) : KODIVideoChecker :=
  match qt.fromJson qtreply with
  | some (.object doc) => c.handle qt doc
  | _ => c

def connected (c : KODIVideoChecker) : KODIVideoChecker :=
  (write { c with
    socketConnected := true
    getCurrentPlaybackStateInitialized := false } .activePlayer).write .checkScreensaver

def disconnected (c : KODIVideoChecker) : KODIVideoChecker :=
  { c with
    socketConnected := false
    previousGrabbingMode := .invalid
    previousVideoMode := .video2D
    kodiVersion := 0 }

end KODIVideoChecker

end HyperionNg

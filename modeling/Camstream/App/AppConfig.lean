import Camstream.Lib.CText

namespace Camstream.App
open Lib

inductive SourceKind
  | v4l2
  | csi
  | stdin
  | test
deriving Repr, DecidableEq

structure AppConfig where
  sourceKind : SourceKind
  sourceName : Text 8
  device : Text 256
  rpicamBin : Text 256
  listen : Text 64
  mdnsName : Text 64
  encoder : Text 64
  configPath : Text 256
  width : UInt32
  height : UInt32
  fps : UInt32
  bitrateKbps : UInt32
  keyframeSeconds : UInt32
  httpPort : UInt16
  udpBasePort : UInt16
  mdnsPort : UInt16
  mdns : Bool
  verbose : Bool
deriving DecidableEq

def appConfigDefaults : AppConfig where
  sourceKind := .v4l2
  sourceName := printText (ascii "v4l2")
  device := printText (ascii "/dev/video0")
  rpicamBin := printText []
  listen := printText (ascii "0.0.0.0")
  mdnsName := printText (ascii "camstream")
  encoder := printText (ascii "auto")
  configPath := printText []
  width := 640
  height := 480
  fps := 30
  bitrateKbps := 2500
  keyframeSeconds := 2
  httpPort := 8080
  udpBasePort := 50000
  mdnsPort := 5353
  mdns := true
  verbose := false

/-- Neither an empty text nor one that does not fit is copied. -/
def copyString (capacity : Nat) (value : Bytes) : Option (Text capacity) :=
  if h : (cString value).length ≠ 0 ∧ (cString value).length < capacity then
    some ⟨cString value, h.2, cString_clean value⟩
  else none

def parseSourceKind (value : Bytes) (config : AppConfig) : Option AppConfig :=
  let named (kind : SourceKind) : Option AppConfig :=
    some { config with sourceKind := kind, sourceName := printText value }
  if value = ascii "v4l2" then named .v4l2
  else if value = ascii "csi" then named .csi
  else if value = ascii "stdin" then named .stdin
  else if value = ascii "test" then named .test
  else none

/-- A number that does not fit `unsigned long` is read as the largest one, and refused. -/
def parseUnsigned (value : Bytes) : Option UInt32 :=
  if value = [] ∨ value.all isDigitByte = false then none
  else
    let parsed := digitsValue 10 value
    if parsed > 0xFFFFFFFF then none else some (UInt32.ofNat parsed)

/-- What `mdns_port`, `http_port` and `udp_port` accept. -/
def parsePort (value : Bytes) : Option UInt16 :=
  match parseUnsigned value with
  | none => none
  | some number => if number = 0 ∨ number > 65535 then none else some number.toUInt16

def parseFlag (on off : List Bytes) (value : Bytes) : Option Bool :=
  if value ∈ on then some true else if value ∈ off then some false else none

def appConfigSetKey (config : AppConfig) (key value : Bytes) : Option AppConfig :=
  if key = ascii "source" then parseSourceKind value config
  else if key = ascii "device" then
    (copyString 256 value).map fun device => { config with device }
  else if key = ascii "rpicam_bin" then
    (copyString 256 value).map fun rpicamBin => { config with rpicamBin }
  else if key = ascii "listen" then
    (copyString 64 value).map fun listen => { config with listen }
  else if key = ascii "encoder" then
    (copyString 64 value).map fun encoder => { config with encoder }
  else if key = ascii "mdns_name" then
    -- an empty name on the command line turns the responder off
    if value = [] then some { config with mdns := false }
    else (copyString 64 value).map fun mdnsName => { config with mdnsName }
  else if key = ascii "mdns_port" then
    (parsePort value).map fun mdnsPort => { config with mdnsPort }
  else if key = ascii "width" then
    (parseUnsigned value).map fun width => { config with width }
  else if key = ascii "height" then
    (parseUnsigned value).map fun height => { config with height }
  else if key = ascii "fps" then
    (parseUnsigned value).map fun fps => { config with fps }
  else if key = ascii "bitrate_kbps" then
    (parseUnsigned value).map fun bitrateKbps => { config with bitrateKbps }
  else if key = ascii "keyframe_seconds" then
    (parseUnsigned value).map fun keyframeSeconds => { config with keyframeSeconds }
  else if key = ascii "http_port" then
    (parsePort value).map fun httpPort => { config with httpPort }
  else if key = ascii "udp_port" then
    (parsePort value).map fun udpBasePort => { config with udpBasePort }
  else if key = ascii "mdns" then
    (parseFlag [ascii "1", ascii "true", ascii "yes", ascii "on"]
      [ascii "0", ascii "false", ascii "no", ascii "off"] value).map fun mdns =>
        { config with mdns }
  else if key = ascii "verbose" then
    (parseFlag [ascii "1", ascii "true", ascii "yes"] [ascii "0", ascii "false", ascii "no"]
      value).map fun verbose => { config with verbose }
  else none

def trim (text : Bytes) : Bytes :=
  ((text.dropWhile isSpaceByte).reverse.dropWhile isSpaceByte).reverse

/-- What `fgets` reads from a file, call by call, into an array of `size` bytes: a line
with its newline, or as much of it as fits. -/
def fgetsLines (size : Nat) (line : Bytes) : Bytes → List Bytes
  | [] => if line = [] then [] else [line]
  | c :: rest =>
    if c = 10 ∨ line.length + 2 = size then (line ++ [c]) :: fgetsLines size [] rest
    else fgetsLines size (line ++ [c]) rest

/-- The body of the loop of `app_config_load_file`, for the line with this number. -/
def loadLine (path : Bytes) (errorSize : Nat) (config : AppConfig) (number : Nat) (line : Bytes) :
    Except Bytes AppConfig :=
  let text := trim ((cString line).takeWhile (· ≠ 35))
  let place := path ++ ascii ":" ++ decimal number
  if text = [] then .ok config
  else if 61 ∉ text then
    .error (copyTo errorSize (ascii "config: " ++ place ++ ascii ": expected 'key = value', got '" ++
      text ++ ascii "'"))
  else
    let key := trim (text.takeWhile (· ≠ 61))
    let value := trim ((text.dropWhile (· ≠ 61)).drop 1)
    if key = [] ∨ value = [] then
      .error (copyTo errorSize (ascii "config: " ++ place ++ ascii ": empty key or value"))
    else
      match appConfigSetKey config key value with
      | some config => .ok config
      | none =>
        .error (copyTo errorSize (ascii "config: " ++ place ++
          ascii ": unknown key or bad value: " ++ key ++ ascii " = " ++ value))

def loadLines (path : Bytes) (errorSize : Nat) :
    AppConfig → Nat → List Bytes → Except Bytes AppConfig
  | config, _, [] => .ok config
  | config, number, line :: lines =>
    match loadLine path errorSize config (number + 1) line with
    | .error e => .error e
    | .ok config => loadLines path errorSize config (number + 1) lines

/-- `file` is what the file holds, `none` when it cannot be opened. -/
def appConfigLoadFile (config : AppConfig) (path : Bytes) (file : Option Bytes) (errorSize : Nat) :
    Except Bytes AppConfig :=
  if path = [] then .ok config
  else
    match file with
    | none => .error (copyTo errorSize (ascii "config: cannot open " ++ path))
    | some content =>
      match copyString 256 path with
      | none => .error (copyTo errorSize (ascii "config: path too long: " ++ path))
      | some configPath =>
        loadLines path errorSize { config with configPath } 0 (fgetsLines 512 [] content)

def isNameByte (c : UInt8) : Bool :=
  (decide (97 ≤ c) && decide (c ≤ 122)) || (decide (65 ≤ c) && decide (c ≤ 90)) ||
    (decide (48 ≤ c) && decide (c ≤ 57)) || c == 45

/-- A frame size is an even number between 16 and 4096. -/
def badSize (n : UInt32) : Bool := n < 16 || n > 4096 || n % 2 != 0

/-- The checks of `app_config_validate` in their order, each with its message. -/
def appConfigChecks (config : AppConfig) : List (Bool × Bytes) :=
  let name := config.mdnsName.bytes
  [(badSize config.width, ascii "config: width must be an even number between 16 and 4096, got " ++
      decimal config.width.toNat),
    (badSize config.height,
      ascii "config: height must be an even number between 16 and 4096, got " ++
      decimal config.height.toNat),
    (config.fps < 1 || config.fps > 120,
      ascii "config: fps must be between 1 and 120, got " ++ decimal config.fps.toNat),
    (config.bitrateKbps < 100 || config.bitrateKbps > 100000,
      ascii "config: bitrate_kbps must be between 100 and 100000, got " ++
      decimal config.bitrateKbps.toNat),
    (config.keyframeSeconds < 1 || config.keyframeSeconds > 60,
      ascii "config: keyframe_seconds must be between 1 and 60, got " ++
      decimal config.keyframeSeconds.toNat),
    (config.httpPort == 0, ascii "config: http_port must not be 0"),
    (config.udpBasePort == 0, ascii "config: udp_port must not be 0"),
    (config.listen.bytes == [], ascii "config: listen address must not be empty"),
    (config.encoder.bytes == [], ascii "config: encoder must not be empty"),
    (config.mdns && (name.length == 0 || decide (name.length > 63)),
      ascii "config: mdns_name must be 1 to 63 characters, got " ++ decimal name.length),
    (config.mdns && (name.head? == some 45 || name.getLast? == some 45),
      ascii "config: mdns_name must not start or end with '-', got '" ++ name ++ ascii "'"),
    (config.mdns && !name.all isNameByte,
      ascii "config: mdns_name may only contain letters, digits and '-', got '" ++ name ++
      ascii "'")]

def appConfigValidate (config : AppConfig) (errorSize : Nat) : Except Bytes Unit :=
  match (appConfigChecks config).find? (·.1) with
  | some (_, message) => .error (copyTo errorSize message)
  | none => .ok ()

end Camstream.App

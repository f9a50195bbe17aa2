import LiveKit.Lib.TextSearch
import Mathlib.Data.UInt

/-!
# Rewriting the lines of a session description

In single peer connection mode the transport edits the text of its offer before it is set: RTP
sections that came out `inactive` become `recvonly`, Opus formats ask for stereo, and the formats of
VP9 and AV1 carry a start bitrate. Each edit detects the line ending of the text, cuts the text into
lines, rewrites some of them and joins them with the same ending, a final one included.
-/

namespace LiveKit.PeerTransport.Munge

open TextSearch

/-- The text of a description, of a line, and of a parameter. -/
abbrev Text := List Char

/-! ## The text operations that the edits use -/

/-- The characters that `trim` and `split_whitespace` take away. -/
def isWhitespace (c : Char) : Bool :=
  (9 ≤ c.val && c.val ≤ 13) || c.val == 32 || c.val == 0x85 || c.val == 0xA0 || c.val == 0x1680 ||
    (0x2000 ≤ c.val && c.val ≤ 0x200A) || c.val == 0x2028 || c.val == 0x2029 || c.val == 0x202F ||
    c.val == 0x205F || c.val == 0x3000

def trimStart (t : Text) : Text := t.dropWhile isWhitespace

def trim (t : Text) : Text := (trimStart (trimStart t).reverse).reverse

def splitWhitespace (t : Text) : List Text := (t.splitOnP isWhitespace).filter (· ≠ [])

/-- What follows the prefix, if the text has it. -/
def stripPrefix (pre t : Text) : Option Text := if pre <+: t then some (t.drop pre.length) else none

/-- The decimal digits of a number. -/
def decimal (n : UInt32) : Text := Nat.toDigits 10 n.toNat

/-- A line ending. -/
inductive Eol
  | lf
  | crlf
deriving DecidableEq

def Eol.text : Eol → Text
  | .lf => ['\n']
  | .crlf => ['\r', '\n']

/-- The line ending that the edits take a text to use. -/
def detectEol (sdp : Text) : Eol := if Eol.crlf.text <:+: sdp then .crlf else .lf

def lines (eol : Eol) (sdp : Text) : List Text := split eol.text sdp

/-- The lines joined, with a final line ending. -/
def rejoin (eol : Eol) (out : List Text) : Text :=
  let munged := eol.text.intercalate out
  if eol.text <:+ munged then munged else munged ++ eol.text

/-! ## Directions -/

def inactive : Text := "a=inactive".toList

def recvonly : Text := "a=recvonly".toList

/-- The line that starts a media section. -/
def isMediaLine (line : Text) : Bool := "m=".toList <+: trim line

def isRtp (line : Text) : Bool := "RTP/".toList <:+: trim line

/-- Whether the section that this line is in is an RTP section. -/
def enterSection (inRtpMediaSection : Bool) (line : Text) : Bool :=
  if isMediaLine line then isRtp line else inRtpMediaSection

def inactiveToRecvonly : Bool → List Text → List Text
  | _, [] => []
  | inRtpMediaSection, line :: rest =>
    let inRtpMediaSection := enterSection inRtpMediaSection line
    (if inRtpMediaSection && trim line == inactive then recvonly else line) ::
      inactiveToRecvonly inRtpMediaSection rest

/-- `munge_inactive_to_recvonly_for_media`. -/
def mungeInactiveToRecvonlyForMedia (sdp : Text) : Text :=
  let eol := detectEol sdp
  rejoin eol (inactiveToRecvonly false (lines eol sdp))

/-! ## Format parameters -/

def rtpmapKey : Text := "a=rtpmap:".toList

def fmtpKey : Text := "a=fmtp:".toList

/-- The payload type that an `a=rtpmap:` line maps to one of these codecs. -/
def payloadType (isTarget : Text → Bool) (line : Text) : Option Text := do
  let rest ← stripPrefix rtpmapKey (trim line)
  let words := splitWhitespace rest
  let pt := words[0]?.getD []
  let codec := words[1]?.getD []
  if isTarget codec && pt ≠ [] then some pt else none

def payloadTypes (isTarget : Text → Bool) (lines : List Text) : List Text :=
  lines.filterMap (payloadType isTarget)

def fmtpPrefix (pt : Text) : Text := fmtpKey ++ pt ++ [' ']

/-- The edit of the format line of one of the payload types; the loop ends at the first that the
line is of. -/
def rewriteFmtp (edit : Text → Text) : List Text → Text → Text
  | [], line => line
  | pt :: pts, line => if fmtpPrefix pt <+: line then edit line else rewriteFmtp edit pts line

/-- What the edits of format lines have in common: without a payload type of the codecs the text
stays as it is. -/
def mungeFmtp (isTarget : Text → Bool) (edit : Text → Text) (sdp : Text) : Text :=
  let eol := detectEol sdp
  let lines := lines eol sdp
  let pts := payloadTypes isTarget lines
  if pts = [] then sdp else rejoin eol (lines.map (rewriteFmtp edit pts))

def isOpus (codec : Text) : Bool := "opus/48000".toList <+: codec

def stereoKey : Text := "stereo=".toList

def addStereo (line : Text) : Text :=
  if stereoKey <:+: line then line else line ++ ';' :: (stereoKey ++ ['1'])

/-- `munge_stereo_for_audio`. -/
def mungeStereoForAudio (sdp : Text) : Text := mungeFmtp isOpus addStereo sdp

def isVp9OrAv1 (codec : Text) : Bool :=
  "VP9/90000".toList <+: codec || "AV1/90000".toList <+: codec

def startBitrateKey : Text := "x-google-start-bitrate=".toList

/-- An existing value, up to the next `;` or to the end, is replaced. -/
def setStartBitrate (startBitrateKbps : UInt32) (line : Text) : Text :=
  match find startBitrateKey line with
  | some pos =>
    let after := line.drop pos
    let stop := match find [';'] after with
      | some i => pos + i
      | none => line.length
    line.take pos ++ (startBitrateKey ++ decimal startBitrateKbps) ++ line.drop stop
  | none => line ++ ';' :: (startBitrateKey ++ decimal startBitrateKbps)

/-- `munge_x_google_start_bitrate`. -/
def mungeXGoogleStartBitrate (sdp : Text) (startBitrateKbps : UInt32) : Text :=
  mungeFmtp isVp9OrAv1 (setStartBitrate startBitrateKbps) sdp

/-! ## A minimal edit -/

/-- A line that its line ending ends, and no other. -/
def Clean : Eol → Text → Prop
  | .lf, line => '\n' ∉ line ∧ line.getLast? ≠ some '\r'
  | .crlf, line => '\n' ∉ line

instance (eol : Eol) (line : Text) : Decidable (Clean eol line) :=
  match eol with
  | .lf => inferInstanceAs (Decidable ('\n' ∉ line ∧ line.getLast? ≠ some '\r'))
  | .crlf => inferInstanceAs (Decidable ('\n' ∉ line))

/-- The lines of the text all end in this line ending; the last may lack it. -/
structure SameEol (eol : Eol) (sdp : Text) : Prop where
  clean : ∀ line ∈ lines eol sdp, Clean eol line
  ends : eol = .crlf → 2 ≤ (lines eol sdp).length

instance (eol : Eol) (sdp : Text) : Decidable (SameEol eol sdp) :=
  decidable_of_iff ((∀ line ∈ lines eol sdp, Clean eol line) ∧
    (eol = .crlf → 2 ≤ (lines eol sdp).length)) ⟨fun h => ⟨h.1, h.2⟩, fun h => ⟨h.1, h.2⟩⟩

/-- The result has the lines of the text up to a final line ending, and those that are not targets
are the same. -/
structure MinimalEdit (eol : Eol) (Target : ℕ → Prop) (sdp munged : Text) : Prop where
  same_eol : SameEol eol munged
  count : (lines eol munged).length = (lines eol sdp).length ∨
    (lines eol munged).length = (lines eol sdp).length + 1 ∧
      (lines eol munged).getLast? = some []
  untouched : ∀ i < (lines eol sdp).length, ¬ Target i →
    (lines eol munged)[i]? = (lines eol sdp)[i]?

/-- The last media line so far is of an RTP section. -/
def InRtpSection (before : List Text) : Prop :=
  ∃ m ∈ (before.filter isMediaLine).getLast?, isRtp m

/-- An `a=inactive` line inside an RTP section. -/
def InactiveLine (lines : List Text) (i : ℕ) : Prop :=
  ∃ line ∈ lines[i]?, trim line = inactive ∧ InRtpSection (lines.take (i + 1))

/-- An `a=fmtp` line of one of the payload types. -/
def FmtpLine (pts : List Text) (lines : List Text) (i : ℕ) : Prop :=
  ∃ line ∈ lines[i]?, ∃ pt ∈ pts, fmtpPrefix pt <+: line

/-- The name of a format parameter, blanks before it aside. -/
def paramName (param : Text) : Text := trimStart (param.takeWhile (· ≠ '='))

/-- The format parameters other than the one of this name. -/
def otherParams (name params : Text) : List Text :=
  (params.splitOn ';').filter (paramName · ≠ name)

/-- The target lines keep their payload type and their other parameters. -/
def KeepsOthers (eol : Eol) (isTarget : Text → Bool) (name sdp munged : Text) : Prop :=
  ∀ i : ℕ, ∀ pt ∈ payloadTypes isTarget (lines eol sdp), ∀ params,
    (lines eol sdp)[i]? = some (fmtpPrefix pt ++ params) →
    ∃ params', (lines eol munged)[i]? = some (fmtpPrefix pt ++ params') ∧
      otherParams name params' = otherParams name params

def stereoName : Text := "stereo".toList

def startBitrateName : Text := "x-google-start-bitrate".toList

/-- The edits of this text are minimal and idempotent, and the last start bitrate stands. -/
structure MungesMinimally (eol : Eol) (sdp : Text) : Prop where
  direction : MinimalEdit eol (InactiveLine (lines eol sdp)) sdp
    (mungeInactiveToRecvonlyForMedia sdp)
  direction_twice : mungeInactiveToRecvonlyForMedia (mungeInactiveToRecvonlyForMedia sdp) =
    mungeInactiveToRecvonlyForMedia sdp
  stereo : MinimalEdit eol (FmtpLine (payloadTypes isOpus (lines eol sdp)) (lines eol sdp)) sdp
    (mungeStereoForAudio sdp)
  stereo_others : KeepsOthers eol isOpus stereoName sdp (mungeStereoForAudio sdp)
  stereo_twice : mungeStereoForAudio (mungeStereoForAudio sdp) = mungeStereoForAudio sdp
  bitrate : ∀ k, MinimalEdit eol
    (FmtpLine (payloadTypes isVp9OrAv1 (lines eol sdp)) (lines eol sdp)) sdp
    (mungeXGoogleStartBitrate sdp k)
  bitrate_others : ∀ k, KeepsOthers eol isVp9OrAv1 startBitrateName sdp
    (mungeXGoogleStartBitrate sdp k)
  bitrate_twice : ∀ k, mungeXGoogleStartBitrate (mungeXGoogleStartBitrate sdp k) k =
    mungeXGoogleStartBitrate sdp k
  bitrate_last : ∀ k₁ k₂, mungeXGoogleStartBitrate (mungeXGoogleStartBitrate sdp k₁) k₂ =
    mungeXGoogleStartBitrate sdp k₂

/-- Where the line names the start bitrate first, a parameter of the format begins there, blanks
before it aside. -/
def StartsParam (pt line : Text) : Prop :=
  ∀ pos ∈ find startBitrateKey line, (fmtpPrefix pt).length ≤ pos ∧
    ∀ param ∈ (((line.take pos).drop (fmtpPrefix pt).length).splitOn ';').getLast?,
      ∀ c ∈ param, isWhitespace c = true

instance decidableBlank (param : Text) : Decidable (∀ c ∈ param, isWhitespace c = true) :=
  List.decidableBAll _ param

instance (pt line : Text) : Decidable (StartsParam pt line) := by
  unfold StartsParam
  infer_instance

/-- It does in every format line of VP9 and AV1. -/
def StartBitratesAreParams (eol : Eol) (sdp : Text) : Prop :=
  ∀ pt ∈ payloadTypes isVp9OrAv1 (lines eol sdp), ∀ line ∈ lines eol sdp,
    fmtpPrefix pt <+: line → StartsParam pt line

instance (eol : Eol) (sdp : Text) : Decidable (StartBitratesAreParams eol sdp) := by
  unfold StartBitratesAreParams
  infer_instance

end LiveKit.PeerTransport.Munge

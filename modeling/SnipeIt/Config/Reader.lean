import Mathlib.Algebra.Group.Int.Defs
import Mathlib.Algebra.Group.Nat.Defs
import SnipeIt.Support.CString
import SnipeIt.Support.Utf8

/-! # The configuration reader (`config.c`)

Keys are found by a search for their quoted name, and values by a search for the
next colon and the next quote.
-/

namespace SnipeIt.Config
open Support CString

def ascii (text : String) : List UInt8 := Utf8.encode text.toList

def quote : UInt8 := 34
def colon : UInt8 := 58

/-- The quoted name of a key; all names fit `search_key`. -/
def searchKey (key : List UInt8) : List UInt8 := quote :: key ++ [quote]

/-- The colon after the first occurrence of the quoted name. -/
def findColon (json key : List UInt8) : Option (List UInt8) := do
  let keyPos ← strstr (searchKey key) json
  strchr colon (keyPos.drop (searchKey key).length)

/-- `isspace` in the C locale. -/
def isspace (b : UInt8) : Bool := b = 32 || (9 ≤ b && b ≤ 13)

def skipWhitespace (str : List UInt8) : List UInt8 := str.dropWhile isspace

def isDigit (b : UInt8) : Bool := 48 ≤ b && b ≤ 57

/-- The number that the digits at the beginning stand for. -/
def leadingNumber (str : List UInt8) : ℕ :=
  (str.takeWhile isDigit).foldl (fun n b => 10 * n + (b.toNat - 48)) 0

/-- `strtol` as an `int`: the number is brought into the range of `long` and cut to 32 bits. -/
def toInt (n : ℤ) : ℤ := Int.bmod (max (-2 ^ 63) (min n (2 ^ 63 - 1))) (2 ^ 32)

def atoi (str : List UInt8) : ℤ :=
  match skipWhitespace str with
  | 45 :: str => toInt (-leadingNumber str)
  | 43 :: str => toInt (leadingNumber str)
  | str => toInt (leadingNumber str)

/-- `json_get_string`: the bytes up to the next quote, as many as the field has room for. -/
def jsonGetString (json key : List UInt8) (valueSize : ℕ) : Option (List UInt8) := do
  let found ← findColon json key
  let quoteStart ← strchr quote found
  let quoteEnd ← strchr quote quoteStart.tail
  let len := quoteStart.tail.length - quoteEnd.length
  return quoteStart.tail.take (if valueSize ≤ len then valueSize - 1 else len)

def jsonGetInt (json key : List UInt8) : Option ℤ := do
  let found ← findColon json key
  return atoi (skipWhitespace found.tail)

def jsonGetBool (json key : List UInt8) : Option Bool := do
  let found ← findColon json key
  return (skipWhitespace found.tail).take 4 = ascii "true"

/-- `StreamingConfig`, without what `ffprobe` finds out. A string is its bytes before the zero. -/
structure StreamingConfig where
  videoPath : List UInt8
  mediamtxPath : List UInt8
  mediamtxConfig : List UInt8
  websocketPort : ℤ
  rtspPort : ℤ
  rtspStreamName : List UInt8
  loopVideo : Bool
  detectionFrameInterval : ℤ
  deriving DecidableEq

def maxPathLength : ℕ := 512

def streamNameSize : ℕ := 64

def configInitDefaults : StreamingConfig where
  videoPath := []
  mediamtxPath := ascii "./mediamtx"
  mediamtxConfig := ascii "./mediamtx.yml"
  websocketPort := 8555
  rtspPort := 8554
  rtspStreamName := ascii "stream"
  loopVideo := false
  detectionFrameInterval := 5

/-- `config_load` of a file that is read whole; a string function sees it up to the first zero. -/
def configLoad (file : Option (List UInt8)) : Option StreamingConfig := do
  let bytes ← file
  if bytes.length = 0 ∨ 65536 < bytes.length then none
  else
    let json := bytes.takeWhile (· ≠ 0)
    let config := configInitDefaults
    return {
      videoPath := (jsonGetString json (ascii "video_path") maxPathLength).getD config.videoPath
      mediamtxPath :=
        (jsonGetString json (ascii "mediamtx_path") maxPathLength).getD config.mediamtxPath
      mediamtxConfig :=
        (jsonGetString json (ascii "mediamtx_config") maxPathLength).getD config.mediamtxConfig
      rtspStreamName :=
        (jsonGetString json (ascii "rtsp_stream_name") streamNameSize).getD config.rtspStreamName
      websocketPort := (jsonGetInt json (ascii "websocket_port")).getD config.websocketPort
      rtspPort := (jsonGetInt json (ascii "rtsp_port")).getD config.rtspPort
      detectionFrameInterval :=
        (jsonGetInt json (ascii "detection_frame_interval")).getD config.detectionFrameInterval
      loopVideo := (jsonGetBool json (ascii "loop_video")).getD config.loopVideo }

theorem mem_of_findColon {json key found : List UInt8} (h : findColon json key = some found)
    {b : UInt8} (hb : b ∈ found) : b ∈ json := by
  obtain ⟨keyPos, hkey, hcolon⟩ := Option.bind_eq_some_iff.mp h
  exact (strstr_suffix hkey).mem (List.mem_of_mem_drop ((strchr_suffix hcolon).mem hb))

theorem jsonGetString_between {json key found tail value rest : List UInt8} {size : ℕ}
    (hfound : findColon json key = some found) (hstart : strchr quote found = some (quote :: tail))
    (htail : tail = value ++ quote :: rest) (hvalue : quote ∉ value) :
    jsonGetString json key size =
      some (value.take (if size ≤ value.length then size - 1 else value.length)) := by
  have hend : strchr quote (value ++ quote :: rest) = some (quote :: rest) := strchr_append hvalue
  have hlen : tail.length - (quote :: rest).length = value.length := by simp [htail]
  simp only [jsonGetString, hfound, hstart, Option.bind_eq_bind, Option.bind_some, List.tail_cons]
  rw [htail] at hlen ⊢
  simp only [hend, Option.bind_some, hlen, Option.pure_def]
  congr 1
  rw [List.take_append_of_le_length]
  split_ifs with h <;> omega

/-- A string that is read has no quote, fits its field and is a part of the text. -/
theorem jsonGetString_eq_some {json key value : List UInt8} {size : ℕ}
    (h : jsonGetString json key size = some value) (hsize : 0 < size) :
    quote ∉ value ∧ value.length < size ∧ ∀ b ∈ value, b ∈ json := by
  obtain ⟨found, hfound, h'⟩ := Option.bind_eq_some_iff.mp h
  obtain ⟨start, hstart, h'⟩ := Option.bind_eq_some_iff.mp h'
  obtain ⟨quoteEnd, hend, -⟩ := Option.bind_eq_some_iff.mp h'
  obtain ⟨front, tail, hsplit, rfl, -⟩ := strchr_eq_some hstart
  obtain ⟨text, rest, htail, rfl, htext⟩ := strchr_eq_some hend
  rw [jsonGetString_between hfound hstart htail htext] at h
  cases h
  refine ⟨fun hmem => htext (List.mem_of_mem_take hmem), ?_, fun b hb => ?_⟩
  · rw [List.length_take]
    split_ifs with hlong <;> omega
  · have hmem : b ∈ tail := by
      rw [List.tail_cons] at htail
      exact htail ▸ List.mem_append_left _ (List.mem_of_mem_take hb)
    exact mem_of_findColon hfound (hsplit ▸ List.mem_append_right _ (List.mem_cons_of_mem _ hmem))

end SnipeIt.Config

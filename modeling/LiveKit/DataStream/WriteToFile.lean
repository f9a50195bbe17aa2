import LiveKit.DataStream.Exactness
import LiveKit.Lib.LexicalPath

/-!
# A stream that is written to a file

`ByteStreamReader::write_to_file`. The name of the file is that of the stream, as its sender has put
it in the header, and the file holds what was read when the channel is closed. What the file system
does is a parameter.
-/

namespace LiveKit.DataStream

open LexicalPath (Path NamesFile normalize join LeadsBelow)

inductive WriteError where
  | stream (err : StreamError)
  /-- `StreamError::Io` -/
  | io

/-- What becomes of the calls on a file. -/
structure FileSystem where
  /-- `File::create` of the path succeeds. -/
  create : Path → Bool
  /-- A path whose last component is empty, `.` or `..` is that of a directory. -/
  create_file : ∀ path, create path = true → NamesFile path
  /-- The `n`-th `write_all` succeeds. -/
  write : ℕ → Bool
  flush : Bool

/-- What is there in the end: the file that was created, with its contents, and what the call
returns, unless it waits. -/
structure Writing where
  file : Option (Path × Bytes)
  result : Option (Except WriteError Path)

/-- The loop over what is read, with the number of chunks that have been written. -/
def writeLoop (fs : FileSystem) (path : Path) (isOpen : Bool) (n : ℕ) (contents : Bytes) :
    List (Except StreamError Bytes) → Writing
  | [] =>
    if isOpen then ⟨some (path, contents), none⟩
    else ⟨some (path, contents), some (if fs.flush then .ok path else .error .io)⟩
  | .error err :: _ => ⟨some (path, contents), some (.error (.stream err))⟩
  | .ok bytes :: items =>
    if fs.write n then writeLoop fs path isOpen (n + 1) (contents ++ bytes) items
    else ⟨some (path, contents), some (.error .io)⟩

/-- `write_to_file` of the reader of a byte stream. -/
def Reader.writeToFile (r : Reader) (info : ByteStreamInfo) (fs : FileSystem) (tempDir : Path)
    (directory : Option Path) (nameOverride : Option Path) : Writing :=
  let path := join (directory.getD tempDir) (nameOverride.getD info.name.toList)
  if fs.create path then writeLoop fs path r.isOpen 0 [] r.items
  else ⟨none, some (.error .io)⟩

/-- The packets are those of a stream that ended normally, with these contents. -/
structure EndedNormally (info : AnyStreamInfo) (packets : List Packet) (contents : Bytes) :
    Prop where
  regular : Regular info (chunksOfPackets packets)
  ending : ending info packets (chunksOfPackets packets) = some (.ok ())
  contents : contents = ((chunksOfPackets packets).map fun c => c.1.content).flatten

/-- Whatever the file system does, the file that is made is below the directory, and the call
succeeds only if the file has the contents of a stream that ended normally. -/
def WritesExactly (r : Reader) (info : ByteStreamInfo) (tempDir : Path) (directory : Option Path)
    (packets : List Packet) : Prop :=
  ∀ fs : FileSystem,
    (∀ file, (r.writeToFile info fs tempDir directory none).file = some file →
      LexicalPath.Normal.Inside (normalize (directory.getD tempDir)) (normalize file.1)) ∧
    ∀ path, (r.writeToFile info fs tempDir directory none).result = some (.ok path) →
      ∃ contents, (r.writeToFile info fs tempDir directory none).file = some (path, contents) ∧
        EndedNormally (.byte info) packets contents

/-! ## Writing -/

section

variable {fs : FileSystem} {path : Path} {isOpen : Bool}

/-- The file that is written is the one that was created. -/
theorem writeLoop_file (fs : FileSystem) (path : Path) (isOpen : Bool) (n : ℕ) (contents : Bytes)
    (items : List (Except StreamError Bytes)) :
    ∃ contents', (writeLoop fs path isOpen n contents items).file = some (path, contents') := by
  induction items generalizing n contents with
  | nil =>
    unfold writeLoop
    split
    · exact ⟨contents, rfl⟩
    · exact ⟨contents, rfl⟩
  | cons item items ih =>
    cases item with
    | error err => exact ⟨contents, rfl⟩
    | ok bytes =>
      unfold writeLoop
      split
      · exact ih _ _
      · exact ⟨contents, rfl⟩

/-- The loop succeeds where the channel is closed without an error. -/
theorem writeLoop_ok {n : ℕ} {contents : Bytes} {items : List (Except StreamError Bytes)}
    {path' : Path} (h : (writeLoop fs path isOpen n contents items).result = some (.ok path')) :
    isOpen = false ∧ path' = path ∧ ∃ chunks : List Bytes, items = chunks.map .ok ∧
      (writeLoop fs path isOpen n contents items).file =
        some (path, contents ++ chunks.flatten) := by
  induction items generalizing n contents with
  | nil =>
    unfold writeLoop at h ⊢
    split at h
    · cases h
    · next hopen =>
      split at h
      · cases h
        rw [if_neg hopen]
        exact ⟨Bool.eq_false_iff.mpr hopen, rfl, [], rfl, by rw [List.flatten_nil,
          List.append_nil]⟩
      · cases h
  | cons item items ih =>
    cases item with
    | error err => cases h
    | ok bytes =>
      unfold writeLoop at h ⊢
      split at h
      · next hwrite =>
        rw [if_pos hwrite]
        obtain ⟨hopen, hpath, chunks, rfl, hfile⟩ := ih h
        refine ⟨hopen, hpath, bytes :: chunks, rfl, ?_⟩
        rw [hfile, List.flatten_cons, List.append_assoc]
      · cases h

/-- Where the file system does all it is asked for, the loop succeeds. -/
theorem writeLoop_chunks (hwrite : ∀ n, fs.write n = true) (hflush : fs.flush = true) (n : ℕ)
    (contents : Bytes) (chunks : List Bytes) :
    (writeLoop fs path false n contents (chunks.map .ok)).result = some (.ok path) := by
  induction chunks generalizing n contents with
  | nil =>
    unfold writeLoop
    simp [hflush]
  | cons bytes chunks ih =>
    rw [List.map_cons]
    unfold writeLoop
    rw [if_pos (hwrite n)]
    exact ih _ _

end

/-- A file system that refuses nothing but directories. -/
def FileSystem.willing : FileSystem where
  create path := decide (NamesFile path)
  create_file _ h := of_decide_eq_true h
  write _ := true
  flush := true

end LiveKit.DataStream

import LiveKit.DataStream.WriteToFile

/-!
# Files that are contained and exact

The file is below the directory if and only if the name leads there, and the call tells a stream
that was cut off from one that ended if and only if the manager outlives the stream: a channel that
is closed because the manager is gone looks like one whose stream ended normally.
-/

namespace LiveKit.DataStream

open TransitionSystem List
open LexicalPath (Path NamesFile normalize join LeadsBelow)

/-! ## Runs in which the manager may be dropped -/

section

variable {info : AnyStreamInfo} {key : ReaderKey} {packets : List Packet} {s s' : State}

/-- Once the manager is gone nothing is received. -/
theorem State.stopped (id : String) {rest : List Action} (hstopped : s.running = false)
    (hrest : exec State.step s rest = some s') (hreader : .dropReader key ∉ rest) :
    packetsOf id rest = [] ∧ s'.readers[key]? = s.readers[key]? := by
  induction rest generalizing s with
  | nil =>
    rw [exec_nil, Option.some.injEq] at hrest
    subst hrest
    exact ⟨rfl, rfl⟩
  | cons a rest ih =>
    obtain ⟨t, ht, hrest⟩ := exec_cons_eq_some.mp hrest
    rw [mem_cons, not_or] at hreader
    unfold State.step at ht
    cases a with
    | receive | dropManager =>
      simp only [hstopped, Bool.false_eq_true, if_false] at ht
      cases ht
    | dropReader key' =>
      obtain ⟨-, rfl⟩ := of_guard ht
      have hne : key' ≠ key := by
        intro heq
        exact hreader.1 (by rw [heq])
      obtain ⟨hpackets, hsame⟩ := ih (by exact hstopped) hrest hreader.2
      refine ⟨hpackets, ?_⟩
      rw [hsame, State.modifyReader_getElem?, if_neg hne]

/-- The reader at the end of a run: its stream went on to the end of it, or to where the manager
was dropped. -/
theorem Reads.run_or_dropped {rest : List Action} (h : Reads info key packets s)
    (hwf : State.Wf s) (hrest : exec State.step s rest = some s')
    (hreader : .dropReader key ∉ rest) :
    .dropManager ∉ rest ∧ Reads info key (packets ++ packetsOf info.id rest) s' ∨
    .dropManager ∈ rest ∧ ∃ t r, Reads info key (packets ++ packetsOf info.id rest) t ∧
      t.readers[key]? = some r ∧ s'.readers[key]? = some r.hangUp := by
  induction rest generalizing packets s with
  | nil =>
    have hdone := h.run hwf hrest not_mem_nil hreader
    exact .inl ⟨not_mem_nil, hdone.1⟩
  | cons a rest ih =>
    obtain ⟨t, ht, hrest⟩ := exec_cons_eq_some.mp hrest
    rw [mem_cons, not_or] at hreader
    have hsplit : packetsOf info.id (a :: rest) =
        packetsOf info.id [a] ++ packetsOf info.id rest :=
      packetsOf_append info.id [a] rest
    by_cases hdrop : a = .dropManager
    · subst hdrop
      have hdropped : t = s.dropManager := by
        rcases State.step_cases ht with ⟨p, hp, -⟩ | ⟨-, heq⟩ | ⟨_, hp, -⟩
        · cases hp
        · exact heq
        · cases hp
      subst hdropped
      obtain ⟨hpackets, hsame⟩ := State.stopped info.id rfl hrest hreader.2
      have hnone : packetsOf info.id (.dropManager :: rest) = [] := by
        rw [hsplit, hpackets]
        rfl
      have hr : ∃ r, s.readers[key]? = some r := by
        rcases h with ⟨d, r, h⟩ | ⟨accepted, r, h⟩
        · exact ⟨r, h.reader⟩
        · exact ⟨r, h.reader⟩
      obtain ⟨r, hr⟩ := hr
      refine .inr ⟨mem_cons_self, s, r, ?_, hr, ?_⟩
      · rw [hnone, append_nil]
        exact h
      · rw [hsame, State.dropManager_getElem?, hr]
        rfl
    · have hnext := h.step hwf ht hdrop (Ne.symm hreader.1)
      rw [hsplit, ← append_assoc]
      rcases ih hnext (hwf.step ht) hrest hreader.2 with ⟨hmem, hreads⟩ | ⟨hmem, hreads⟩
      · refine .inl ⟨?_, hreads⟩
        rw [mem_cons, not_or]
        exact ⟨Ne.symm hdrop, hmem⟩
      · exact .inr ⟨mem_cons_of_mem a hmem, hreads⟩

/-- A stream that has ended, and no error in the channel: it ended normally. -/
theorem Over.endedNormally {accepted : List ReceivedChunk} {r : Reader}
    (h : Over info key packets s accepted r) {chunks : List Bytes}
    (hitems : r.items = chunks.map .ok) : EndedNormally info packets chunks.flatten := by
  have hread := h.items
  rw [hitems] at hread
  -- there is no error among the items
  have hok : ending info packets accepted = some (.ok ()) := by
    obtain ⟨e, he⟩ := Option.ne_none_iff_exists'.mp h.ended
    cases e with
    | ok => exact he
    | error err =>
      rw [he] at hread
      have hmem : Except.error err ∈ chunks.map (@Except.ok StreamError Bytes) := by
        rw [hread]
        exact mem_append_right _ mem_cons_self
      obtain ⟨_, -, hbad⟩ := mem_map.mp hmem
      cases hbad
  have hall : accepted = chunksOfPackets packets := by
    apply h.longest.isPrefix.eq_of_length
    unfold ending at hok
    have hle := h.longest.isPrefix.length_le
    split at hok
    · cases hok
    · next hnone =>
      rw [getElem?_eq_none_iff] at hnone
      omega
  subst hall
  rw [hok] at hread
  have hchunks : chunks = (chunksOfPackets packets).map fun c => c.1.content := by
    have hinj : Function.Injective (@Except.ok StreamError Bytes) :=
      fun _ _ heq => Except.ok.inj heq
    apply hinj.list_map
    rw [hread, map_map]
    exact append_nil _
  exact ⟨h.longest.regular, hok, by rw [hchunks]⟩

end

/-! ## What is claimed of the call -/

section

variable {r : Reader} {info : ByteStreamInfo} {tempDir : Path} {directory : Option Path}
  {packets : List Packet}

/-- The file is contained wherever one can be made. -/
theorem contained_iff :
    (∀ fs : FileSystem, ∀ file, (r.writeToFile info fs tempDir directory none).file = some file →
      LexicalPath.Normal.Inside (normalize (directory.getD tempDir)) (normalize file.1)) ↔
    (NamesFile info.name.toList → LeadsBelow (directory.getD tempDir) info.name.toList) := by
  rw [← LexicalPath.inside_join, ← LexicalPath.namesFile_join (directory.getD tempDir)]
  constructor
  · intro h hfile
    obtain ⟨contents, hcreated⟩ := writeLoop_file .willing
      (join (directory.getD tempDir) info.name.toList) r.isOpen 0 [] r.items
    have hwilling : FileSystem.willing.create (join (directory.getD tempDir) info.name.toList) =
        true := decide_eq_true hfile
    apply h .willing (join (directory.getD tempDir) info.name.toList, contents)
    unfold Reader.writeToFile
    simp only [Option.getD_none]
    rw [if_pos hwilling, hcreated]
  · intro h fs file hcreated
    unfold Reader.writeToFile at hcreated
    simp only [Option.getD_none] at hcreated
    split at hcreated
    · next hcreate =>
      obtain ⟨contents, hfile⟩ := writeLoop_file fs
        (join (directory.getD tempDir) info.name.toList) r.isOpen 0 [] r.items
      rw [hfile, Option.some.injEq] at hcreated
      rw [← hcreated]
      exact h (fs.create_file _ hcreate)
    · cases hcreated

/-- A call that succeeds has made a file, and has found the channel closed, and no error in it. -/
theorem writeToFile_ok {fs : FileSystem} {path : Path}
    (h : (r.writeToFile info fs tempDir directory none).result = some (.ok path)) :
    NamesFile info.name.toList ∧ r.isOpen = false ∧ ∃ chunks : List Bytes,
      r.items = chunks.map .ok ∧
        (r.writeToFile info fs tempDir directory none).file = some (path, chunks.flatten) := by
  unfold Reader.writeToFile at h ⊢
  simp only at h ⊢
  split at h
  · next hcreate =>
    rw [if_pos hcreate]
    obtain ⟨hopen, rfl, chunks, hitems, hfile⟩ := writeLoop_ok h
    have hnames := fs.create_file _ hcreate
    rw [LexicalPath.namesFile_join] at hnames
    exact ⟨hnames, hopen, chunks, hitems, by rw [hfile, nil_append]⟩
  · cases h

/-- The call succeeds where it can and the channel is closed without an error. -/
theorem writeToFile_willing {chunks : List Bytes} (hfile : NamesFile info.name.toList)
    (hopen : r.isOpen = false) (hitems : r.items = chunks.map .ok) :
    ∃ path, (r.writeToFile info .willing tempDir directory none).result = some (.ok path) := by
  rw [← LexicalPath.namesFile_join (directory.getD tempDir)] at hfile
  have hwilling : FileSystem.willing.create (join (directory.getD tempDir) info.name.toList) =
      true := decide_eq_true hfile
  refine ⟨join (directory.getD tempDir) info.name.toList, ?_⟩
  unfold Reader.writeToFile
  simp only [Option.getD_none]
  rw [if_pos hwilling, hopen, hitems]
  exact writeLoop_chunks (fun _ => rfl) rfl 0 [] chunks

end

/-- The file that a byte stream is written to is below the directory, and has the contents of a
stream that ended normally where the call succeeds, if and only if the name, where it names a file,
leads below the directory, and the manager is dropped only after the stream has ended. -/
theorem written_iff (before rest : List Action) (s s' : State) (header : Header)
    (byteHeader : ByteHeader) (identity : String) (encryptionType : EncryptionType)
    (tempDir : Path) (directory : Option Path)
    (hbefore : TransitionSystem.exec State.step State.new before = some s)
    (hcontent : header.contentHeader = some (.byteHeader byteHeader))
    (hnew : header.streamId ∉ s.openStreams)
    (hrest : TransitionSystem.exec State.step s
      (.receive (.header header identity encryptionType) :: rest) = some s')
    (hreader : .dropReader s.readers.length ∉ rest) :
    ∃ r, s'.readers[s.readers.length]? = some r ∧
      (WritesExactly r (.fromHeadersWithEncryption header byteHeader encryptionType) tempDir
          directory (packetsOf header.streamId rest) ↔
        (NamesFile byteHeader.name.toList →
          LeadsBelow (directory.getD tempDir) byteHeader.name.toList ∧
          (.dropManager ∈ rest →
            Ended (.byte (.fromHeadersWithEncryption header byteHeader encryptionType))
              (packetsOf header.streamId rest)))) := by
  have hwf : State.Wf s :=
    exec_invariant (fun _ _ _ h ht => h.step ht) State.Wf.new hbefore
  generalize hbyte :
    ByteStreamInfo.fromHeadersWithEncryption header byteHeader encryptionType = byteInfo
  have hname : byteInfo.name = byteHeader.name := by
    rw [← hbyte]
    rfl
  have hid : (AnyStreamInfo.byte byteInfo).id = header.streamId := by
    rw [← hbyte]
    rfl
  have hinfo : AnyStreamInfo.tryFromWithEncryption header encryptionType =
      .ok (.byte byteInfo) := by
    unfold AnyStreamInfo.tryFromWithEncryption
    rw [hcontent, ← hbyte]
  obtain ⟨t, ht, hrun⟩ := exec_cons_eq_some.mp hrest
  have hstart : Reads (.byte byteInfo) s.readers.length [] t := by
    rcases State.step_cases ht with ⟨p, hp, rfl⟩ | ⟨hp, -⟩ | ⟨_, hp, -⟩
    · cases hp
      exact reads_opened hinfo (by rw [hid]; exact hnew)
    · cases hp
    · cases hp
  have hend := hstart.run_or_dropped (hwf.step ht) hrun hreader
  rw [nil_append, hid] at hend
  generalize packetsOf header.streamId rest = packets at hend ⊢
  rw [← hname]
  -- what is contained does not depend on how the stream ended
  have hsplit : ∀ r : Reader,
      ((NamesFile byteInfo.name.toList → .dropManager ∈ rest → Ended (.byte byteInfo) packets) ↔
        ∀ fs path, (r.writeToFile byteInfo fs tempDir directory none).result = some (.ok path) →
          ∃ contents, (r.writeToFile byteInfo fs tempDir directory none).file =
            some (path, contents) ∧ EndedNormally (.byte byteInfo) packets contents) →
      (WritesExactly r byteInfo tempDir directory packets ↔
        (NamesFile byteInfo.name.toList →
          LeadsBelow (directory.getD tempDir) byteInfo.name.toList ∧
          (.dropManager ∈ rest → Ended (.byte byteInfo) packets))) := by
    intro r hexact
    unfold WritesExactly
    rw [forall_and, contained_iff, ← hexact, ← forall_and]
  rcases hend with ⟨hmem, ⟨d, r, h⟩ | ⟨accepted, r, h⟩⟩ | ⟨hmem, u, r, hreads, hr, hhung⟩
  · -- the stream goes on: the call waits
    refine ⟨r, h.reader, hsplit r ⟨fun _ fs path hok => ?_, fun _ _ hbad => absurd hbad hmem⟩⟩
    have hclosed := (writeToFile_ok hok).2.1
    rw [h.isOpen] at hclosed
    cases hclosed
  · refine ⟨r, h.reader, hsplit r ⟨fun _ fs path hok => ?_, fun _ _ hbad => absurd hbad hmem⟩⟩
    obtain ⟨-, -, chunks, hitems, hfile⟩ := writeToFile_ok hok
    exact ⟨chunks.flatten, hfile, h.endedNormally hitems⟩
  · refine ⟨r.hangUp, hhung, hsplit r.hangUp ?_⟩
    rcases hreads with ⟨d, r', h⟩ | ⟨accepted, r', h⟩
    · -- the stream was cut off, and its channel has no error
      rw [h.reader, Option.some.injEq] at hr
      subst hr
      obtain ⟨hlongest, hgoes⟩ := h.not_ended
      have hnot : ¬ Ended (.byte byteInfo) packets := by
        rintro ⟨accepted, hlongest', hend⟩
        rw [hlongest.unique hlongest'] at hgoes
        exact hend hgoes
      have hitems : r'.hangUp.items =
          ((chunksOfPackets packets).map fun c => c.1.content).map .ok := by
        rw [map_map]
        exact h.items
      constructor
      · intro hended fs path hok
        exact absurd (hended (writeToFile_ok hok).1 hmem) hnot
      · intro hexact hfile _
        obtain ⟨path, hok⟩ := writeToFile_willing hfile rfl hitems
        obtain ⟨contents, -, hnormal⟩ := hexact .willing path hok
        exact ⟨_, hlongest, by rw [hnormal.ending]; exact Option.some_ne_none _⟩
    · cases h.reader.symm.trans hr
      rw [Reader.hangUp_of_closed h.isOpen]
      refine ⟨fun _ fs path hok => ?_, fun _ _ _ => ⟨accepted, h.longest, h.ended⟩⟩
      obtain ⟨-, -, chunks, hitems, hfile⟩ := writeToFile_ok hok
      exact ⟨chunks.flatten, hfile, h.endedNormally hitems⟩

/-- The header of a byte stream with this name. -/
def namedHeader (name : String) : Header :=
  ⟨"a", "", "", some 1, ∅, some (.byteHeader ⟨name⟩)⟩

/-- A file with a plain name, of a stream that ends while the manager is there. -/
theorem written_iff_of_plain_name :
    ∃ r, WritesExactly r (.fromHeadersWithEncryption (namedHeader "notes.txt") ⟨"notes.txt"⟩ .none)
      "/tmp".toList none [.chunk ⟨"a", 0, [7]⟩ .none, .trailer ⟨"a", ""⟩] := by
  obtain ⟨r, -, hiff⟩ := written_iff []
    [.receive (.chunk ⟨"a", 0, [7]⟩ .none), .receive (.trailer ⟨"a", ""⟩)] State.new _
    (namedHeader "notes.txt") ⟨"notes.txt"⟩ "mallory" .none "/tmp".toList none rfl rfl (by decide)
    rfl (by simp)
  refine ⟨r, hiff.mpr fun _ => ⟨?_, fun hmem => by simp at hmem⟩⟩
  exact ⟨.inl (by decide), "notes.txt".toList, [], by decide⟩

/-- The sender names a file anywhere, and it is made there. -/
theorem absolute_name_escapes :
    ∃ s' r, TransitionSystem.exec State.step State.new
        [.receive (.header (namedHeader "/etc/passwd") "mallory" .none),
          .receive (.chunk ⟨"a", 0, [7]⟩ .none), .receive (.trailer ⟨"a", ""⟩)] = some s' ∧
      s'.readers[0]? = some r ∧
      ¬ WritesExactly r
          (.fromHeadersWithEncryption (namedHeader "/etc/passwd") ⟨"/etc/passwd"⟩ .none)
          "/tmp".toList none [.chunk ⟨"a", 0, [7]⟩ .none, .trailer ⟨"a", ""⟩] := by
  refine ⟨_, _, rfl, rfl, fun h => ?_⟩
  obtain ⟨-, -, n, ns, hnames⟩ := (h .willing).1 ("/etc/passwd".toList, [7]) (by decide)
  have hdir : (normalize "/tmp".toList).names = ["tmp".toList] := by decide
  have hhead : (normalize "/etc/passwd".toList).names.head? = some "tmp".toList := by
    rw [show (normalize "/etc/passwd".toList).names = _ from hnames]
    show ((normalize "/tmp".toList).names ++ n :: ns).head? = _
    rw [hdir]
    rfl
  exact absurd hhead (by decide)

end LiveKit.DataStream

import RWebTransport.Lib.Run
import RWebTransport.Session.Frames

/-!
# Frames from chunks

What a frame parser makes of the frames that were written into a stream, however
the stream is cut and whenever the parser is asked for one.  The frames it still
owes are those whose bytes are in its buffer or on their way.
-/

namespace RWebTransport.FrameParser

/-- What is done with a parser. -/
inductive Call where
  | push (bytes : Bytes)
  | nextFrame

/-- The bytes a call brings. -/
def Call.bytes : Call → Bytes
  | .push bytes => bytes
  | .nextFrame => []

/-- A parser, and the frames that were popped from it. -/
structure Popping where
  parser : FrameParser
  popped : List (Nat × Bytes)

/-- A frame that the parser takes. -/
def Fits (f : Nat × Bytes) : Prop := f.1 < 2 ^ 62 ∧ f.2.length ≤ maxControlFrame

instance (f : Nat × Bytes) : Decidable (Fits f) := inferInstanceAs (Decidable (_ ∧ _))

/-- The frames, one behind the other. -/
def encode (frames : List (Nat × Bytes)) : Bytes := frames.flatMap fun f => H3.frame f.1 f.2

theorem encode_cons (f : Nat × Bytes) (frames : List (Nat × Bytes)) :
    encode (f :: frames) = H3.frame f.1 f.2 ++ encode frames := rfl

theorem encode_eq_nil {frames : List (Nat × Bytes)} (h : encode frames = []) : frames = [] := by
  cases frames with
  | nil => rfl
  | cons f frames =>
      have hpos := H3.varintLen_pos f.1
      have hlen := congrArg List.length h
      rw [encode_cons, H3.frame] at hlen
      simp at hlen
      omega

namespace Popping

/-- A new parser. -/
def start (memory : Nat) : Popping := ⟨⟨.new memory, false⟩, []⟩

/-- A call, with the memory that the rest of the session leaves it. -/
def step (s : Popping) (c : Heap × Call) : Popping :=
  match c.2 with
  | .push bytes => { s with parser := (s.parser.push c.1 bytes).1 }
  | .nextFrame =>
      match s.parser.nextFrame c.1 with
      | (some (ty, payload), parser, _) => ⟨parser, s.popped ++ [(ty, payload.data)]⟩
      | (none, parser, _) => { s with parser := parser }

/-- The memory the call asks for is given: for the chunk, or for the copy of a
payload. -/
def Granted (s : Popping) (c : Heap × Call) : Prop :=
  (match c.2, frameHead s.parser.buf.data with
    | .push bytes, _ => (s.parser.buf.extendFromSlice c.1 bytes).1.isSome
    | .nextFrame, .frame _ payload _ =>
        ((ParserBuffer.new s.parser.buf.memory).extendFromSlice c.1 payload).1.isSome
    | .nextFrame, _ => true) = true

instance (s : Popping) (c : Heap × Call) : Decidable (s.Granted c) :=
  inferInstanceAs (Decidable (_ = true))

/-- The frames that have not been popped, of which `more` has not arrived. -/
structure Owes (s : Popping) (todo : List (Nat × Bytes)) (more : Bytes) : Prop where
  sound : s.parser.error = false
  fits : ∀ f ∈ todo, Fits f
  bytes : s.parser.buf.data ++ more = encode todo

variable {s : Popping} {todo : List (Nat × Bytes)} {more : Bytes}

theorem Owes.push {h : Heap} {chunk : Bytes} (howes : s.Owes todo (chunk ++ more))
    (hgranted : s.Granted (h, .push chunk)) :
    (s.step (h, .push chunk)).Owes todo more ∧ (s.step (h, .push chunk)).popped = s.popped := by
  refine ⟨?_, rfl⟩
  have hsome : (s.parser.buf.extendFromSlice h chunk).1.isSome = true := hgranted
  cases hx : s.parser.buf.extendFromSlice h chunk with
  | mk buf h' =>
      rw [hx] at hsome
      obtain ⟨buf, rfl⟩ := Option.isSome_iff_exists.mp hsome
      have hparser : (s.step (h, .push chunk)).parser = { s.parser with buf := buf } := by
        simp only [step, FrameParser.push, howes.sound, hx]
        rfl
      constructor
      · rw [hparser]
        exact howes.sound
      · exact howes.fits
      · rw [hparser, ParserBuffer.extendFromSlice_data hx, List.append_assoc]
        exact howes.bytes

/-- What a parser finds is the next frame it owes. -/
theorem Owes.head (howes : s.Owes todo more) :
    frameHead s.parser.buf.data = .incomplete ∧ (more = [] → todo = []) ∨
      ∃ f rest buf, todo = f :: rest ∧ frameHead s.parser.buf.data = .frame f.1 f.2 buf ∧
        buf ++ more = encode rest := by
  have hbytes := howes.bytes
  cases todo with
  | nil =>
      have hnil : s.parser.buf.data = [] := (List.append_eq_nil_iff.mp hbytes).1
      exact .inl ⟨by rw [hnil]; rfl, fun _ => rfl⟩
  | cons f rest =>
      obtain ⟨hty, hpayload⟩ := howes.fits f List.mem_cons_self
      have hwhole : frameHead (s.parser.buf.data ++ more) = .frame f.1 f.2 (encode rest) := by
        rw [hbytes, encode_cons]
        exact frameHead_frame hty hpayload _
      obtain ⟨hover, hframe⟩ := @frameHead_append s.parser.buf.data more
      cases hhead : frameHead s.parser.buf.data with
      | incomplete =>
          refine .inl ⟨rfl, fun hmore => ?_⟩
          rw [hmore, List.append_nil, hhead] at hwhole
          cases hwhole
      | oversized =>
          rw [hover hhead] at hwhole
          cases hwhole
      | frame ty payload buf =>
          rw [hframe ty payload buf hhead] at hwhole
          obtain ⟨rfl, rfl, hbuf⟩ := FrameHead.frame.inj hwhole
          exact .inr ⟨f, rest, buf, rfl, rfl, hbuf⟩

theorem Owes.nextFrame {h : Heap} (howes : s.Owes todo more)
    (hgranted : s.Granted (h, .nextFrame)) :
    ∃ todo', (s.step (h, .nextFrame)).Owes todo' more ∧
      (s.step (h, .nextFrame)).popped ++ todo' = s.popped ++ todo ∧
      (more = [] → todo' = todo.tail) := by
  have hnext := FrameParser.nextFrame_eq h howes.sound
  rcases howes.head with ⟨hhead, hnone⟩ | ⟨f, rest, buf, rfl, hhead, hbuf⟩
  · have hstep : s.step (h, .nextFrame) = s := by
      simp only [step, hnext, hhead]
    rw [hstep]
    exact ⟨todo, howes, rfl, fun hmore => by rw [hnone hmore]; rfl⟩
  · have hsome : ((ParserBuffer.new s.parser.buf.memory).extendFromSlice h f.2).1.isSome = true := by
      simpa only [Granted, hhead] using hgranted
    cases hx : (ParserBuffer.new s.parser.buf.memory).extendFromSlice h f.2 with
    | mk copy h' =>
        rw [hx] at hsome
        obtain ⟨copy, rfl⟩ := Option.isSome_iff_exists.mp hsome
        have hcopy : copy.data = f.2 := by
          simpa [ParserBuffer.new] using ParserBuffer.extendFromSlice_data hx
        have hpopped : (s.step (h, .nextFrame)).popped = s.popped ++ [f] := by
          simp only [step, hnext, hhead, hx, hcopy]
        have hdata : (s.step (h, .nextFrame)).parser.buf.data = buf := by
          simp only [step, hnext, hhead, hx, ParserBuffer.consume_data, (frameHead_rest hhead).1]
        have hsound : (s.step (h, .nextFrame)).parser.error = false := by
          simp only [step, hnext, hhead, hx, howes.sound]
        refine ⟨rest, ⟨hsound, ?_, ?_⟩, ?_, fun _ => rfl⟩
        · exact fun g hg => howes.fits g (List.mem_cons_of_mem f hg)
        · rw [hdata]
          exact hbuf
        · rw [hpopped, List.append_assoc]
          rfl

/-- What one call leaves owed; once every byte has arrived, `next_frame` pays. -/
theorem Owes.step {c : Heap × Call} (howes : s.Owes todo (c.2.bytes ++ more))
    (hgranted : s.Granted c) :
    ∃ todo', (s.step c).Owes todo' more ∧ (s.step c).popped ++ todo' = s.popped ++ todo ∧
      (c.2 = .nextFrame → more = [] → todo' = todo.tail) := by
  obtain ⟨h, call⟩ := c
  cases call with
  | push chunk =>
      obtain ⟨hnext, hpopped⟩ := howes.push hgranted
      exact ⟨todo, hnext, congrArg (· ++ todo) hpopped, fun hcall => by cases hcall⟩
  | nextFrame =>
      obtain ⟨todo', hnext, hpopped, hpays⟩ := Owes.nextFrame howes hgranted
      exact ⟨todo', hnext, hpopped, fun _ => hpays⟩

/-- The bytes that the calls bring. -/
def pushed (calls : List (Heap × Call)) : Bytes := calls.flatMap fun c => c.2.bytes

theorem Owes.run : ∀ {calls : List (Heap × Call)} {s : Popping} {todo : List (Nat × Bytes)},
    s.Owes todo (pushed calls ++ more) → Along Popping.step Granted s calls →
    ∃ todo', (execute Popping.step s calls).Owes todo' more ∧
      (execute Popping.step s calls).popped ++ todo' = s.popped ++ todo
  | [], _, todo, howes, _ => ⟨todo, howes, rfl⟩
  | c :: calls, s, todo, howes, ⟨hgranted, hrun⟩ => by
      have howes' : s.Owes todo (c.2.bytes ++ (pushed calls ++ more)) := by
        rw [← List.append_assoc]
        exact howes
      obtain ⟨todo1, hnext, hpopped, -⟩ := howes'.step hgranted
      obtain ⟨todo', hlast, hall⟩ := Owes.run hnext hrun
      exact ⟨todo', hlast, hall.trans hpopped⟩

/-- Asked often enough, a parser that has every byte gives the rest. -/
theorem Owes.drain : ∀ {pops : List (Heap × Call)} {s : Popping} {todo : List (Nat × Bytes)},
    s.Owes todo [] → (∀ c ∈ pops, c.2 = .nextFrame) → todo.length ≤ pops.length →
    Along Popping.step Granted s pops → (execute Popping.step s pops).Owes [] [] ∧
      (execute Popping.step s pops).popped = s.popped ++ todo
  | [], s, todo, howes, _, hlen, _ => by
      obtain rfl : todo = [] := List.eq_nil_of_length_eq_zero (Nat.le_zero.mp hlen)
      exact ⟨howes, (List.append_nil s.popped).symm⟩
  | c :: pops, s, todo, howes, hpops, hlen, ⟨hgranted, hrun⟩ => by
      have hc := hpops c List.mem_cons_self
      have howes' : s.Owes todo (c.2.bytes ++ []) := by
        rw [hc]
        exact howes
      obtain ⟨todo', hnext, hpopped, hpays⟩ := howes'.step hgranted
      have hless : todo'.length ≤ pops.length := by
        rw [hpays hc rfl, List.length_tail]
        simp only [List.length_cons] at hlen
        omega
      obtain ⟨hlast, hall⟩ := Owes.drain hnext (fun d hd => hpops d (List.mem_cons_of_mem c hd))
        hless hrun
      exact ⟨hlast, hall.trans hpopped⟩

/-- Varints and frames read back as they were written.  A varint has one shortest
encoding, and a cut inside it is seen.  A frame parser that gets the frames in
chunks, and is asked at any time, pops these frames in order and no others; when
every byte has arrived it gives the rest, and keeps nothing. -/
theorem frames_reassembled :
    (∀ v < 2 ^ 62, (H3.putVarint v).length = H3.varintLen v ∧
      (∀ s, H3.readVarint (H3.putVarint v ++ s) = some (v, H3.varintLen v)) ∧
      (∀ b n, H3.readVarint b = some (v, n) → H3.varintLen v ≤ n) ∧
      ∀ k < H3.varintLen v, H3.readVarint ((H3.putVarint v).take k) = none) ∧
    ∀ (frames : List (Nat × Bytes)) (memory : Nat) (calls pops : List (Heap × Call)),
      (∀ f ∈ frames, Fits f) → pushed calls = encode frames →
      (∀ c ∈ pops, c.2 = .nextFrame) → frames.length ≤ pops.length →
      Along Popping.step Granted (start memory) (calls ++ pops) →
      let s := execute Popping.step (start memory) calls
      let s' := execute Popping.step s pops
      (s.popped <+: frames ∧ s.parser.error = false) ∧
        s'.popped = frames ∧ s'.parser.buf.data = [] ∧ s'.parser.error = false := by
  refine ⟨fun v hv => ⟨H3.length_putVarint v, H3.readVarint_putVarint hv,
    fun b n => H3.varintLen_le_of_readVarint, fun k => H3.readVarint_take_putVarint hv⟩, ?_⟩
  intro frames memory calls pops hfits hpushed hpops hlen hrun
  obtain ⟨hcalls, hdrain⟩ := along_append.mp hrun
  have hstart : (start memory).Owes frames (pushed calls ++ []) :=
    ⟨rfl, hfits, by rw [hpushed, List.append_nil]; rfl⟩
  obtain ⟨todo, howes, hall⟩ := hstart.run hcalls
  have htodo : todo.length ≤ pops.length := by
    have hlength := congrArg List.length hall
    rw [List.length_append, List.length_append] at hlength
    simp only [start, List.length_nil] at hlength
    omega
  obtain ⟨hlast, hpopped⟩ := howes.drain hpops htodo hdrain
  refine ⟨⟨⟨todo, hall⟩, howes.sound⟩, hpopped.trans hall, ?_, hlast.sound⟩
  exact (List.append_eq_nil_iff.mp hlast.bytes).1

/-- A budget, and an allocator that gives what is asked for. -/
def sampleMemory : Heap := ⟨[⟨2 ^ 26, 0, none⟩], 0, fun _ _ => some 0⟩

/-- Two frames, the first one cut behind its type. -/
def sampleCalls : List (Heap × Call) :=
  [.push [1], .nextFrame, .push [2, 5, 6, 0], .push [0]].map fun c => (sampleMemory, c)

theorem frames_reassembled_sample :
    (execute Popping.step (execute Popping.step (start 0) sampleCalls)
      (List.replicate 2 (sampleMemory, .nextFrame))).popped = [(1, [5, 6]), (0, [])] :=
  (frames_reassembled.2 [(1, [5, 6]), (0, [])] 0 sampleCalls (List.replicate 2 (sampleMemory, .nextFrame))
    (by decide) (by decide) (fun _ hc => congrArg Prod.snd (List.eq_of_mem_replicate hc)) (by decide)
    (by decide +kernel)).2.1

end Popping

end RWebTransport.FrameParser

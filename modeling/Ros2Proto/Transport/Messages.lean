import Ros2Proto.Transport.Tcp

/-!
# Message passing over the transport

`readMessage`, `writeMessage` and `sendFrames` of `transport_tcp.cpp`, and `socketUpdate`, which
calls the first two. Each call of `readMessage` or `writeMessage` makes at most one `read` or
`write`, so a message is moved a piece at a time, and the cursors of `Message` say how far it is.
The parts of a function that the source repeats or runs last have names of their own here:
`startReading`, `readNumframes`, `endFrame` and `finishFrame`.
-/

namespace Ros2Proto

open LittleEndian

/-- `frames.resize(n)`: an added `Frame` is value-initialized, so its size is `0`. -/
def resizeFrames (frames : List Frame) (n : Nat) : List Frame :=
  frames.take n ++ List.replicate (n - frames.length) ⟨[], 0⟩

/-- The message with its current frame replaced: the source holds a reference to the element. -/
def Message.setFrame (m : Message) (frame : Frame) : Message :=
  { m with frames := m.frames.set m.frameInd.toNat frame }

namespace TransportTCP

/-! ### Reading -/

/-- `new uint8_t[size]` -/
def allocate (t : TransportTCP) (size : UInt32) : List UInt8 :=
  (List.range size.toNat).map t.heap

def startReading (t : TransportTCP) : TransportTCP :=
  if t.reading then t
  else { t with
    readMsg := { t.readMsg with
      frames := []
      numframesFilled := 0
      frameInd := 0
      frameFilled := 0
      frameSzFilled := 0 }
    reading := true }

/-- `readMessage` while the count is incomplete. -/
def readNumframes (t : TransportTCP) (recv : Recv) : Except Fault TransportTCP := do
  let (readSz, bs, t) ← t.read recv (4 - t.readMsg.numframesFilled)
  if readSz < 0 then
    .ok t
  else
    let m := { t.readMsg with
      numframes := overwrite t.readMsg.numframes t.readMsg.numframesFilled.toNat bs
      numframesFilled := t.readMsg.numframesFilled + wrapU32 readSz }
    let t := { t with readMsg := m }
    if m.numframesFilled = 4 then
      let t ← if m.numframes = 0 then t.close else .ok t
      .ok { t with
        readMsg := { m with frames := resizeFrames m.frames m.numframes.toNat } }
    else
      .ok t

/-- The test at the end of `readFrame`, with `frame` the element `frames.at(frame_ind)`. -/
def endFrame (t : TransportTCP) (frame : Frame) : Except Fault TransportTCP :=
  if t.readMsg.frameFilled = frame.size then
    let m := { t.readMsg with
      frameInd := t.readMsg.frameInd + 1
      frameFilled := 0
      frameSzFilled := 0 }
    if m.frameInd.toNat = m.frames.length then
      if t.readmsgCb then
        .ok { t with readMsg := m, delivered := t.delivered ++ [m.frames], reading := false }
      else
        .error .badFunctionCall
    else
      .ok { t with readMsg := m }
  else
    .ok t

def readFrame (t : TransportTCP) (recv : Recv) : Except Fault TransportTCP :=
  match t.readMsg.frames[t.readMsg.frameInd.toNat]? with
  | none => .error .outOfRange
  | some frame =>
    if t.readMsg.frameSzFilled < 4 then do
      let (readSz, bs, t) ← t.read recv (4 - t.readMsg.frameSzFilled)
      if readSz < 0 then
        .ok t
      else
        let size := overwrite frame.size t.readMsg.frameSzFilled.toNat bs
        let filled := t.readMsg.frameSzFilled + wrapU32 readSz
        let frame : Frame := ⟨if filled = 4 then t.allocate size else frame.data, size⟩
        endFrame { t with
          readMsg := { t.readMsg.setFrame frame with frameSzFilled := filled } } frame
    else
      let toRead := frame.size - t.readMsg.frameFilled
      if 0 < toRead then
        if frame.data.length < t.readMsg.frameFilled.toNat + toRead.toNat then .error .overrun
        else do
          let (readSz, bs, t) ← t.read recv toRead
          if readSz < 0 then
            .ok t
          else
            let frame := { frame with
              data := Buffer.write frame.data t.readMsg.frameFilled.toNat bs }
            endFrame { t with
              readMsg := { t.readMsg.setFrame frame with
                frameFilled := t.readMsg.frameFilled + wrapU32 readSz } } frame
      else
        endFrame t frame

def readMessage (t : TransportTCP) (recv : Recv) : Except Fault TransportTCP :=
  if !t.messages then .error .rosBreak
  else
    let t := t.startReading
    if t.readMsg.numframesFilled < 4 then t.readNumframes recv else t.readFrame recv

/-! ### Writing -/

/-- The test at the end of `writeFrame`, for the front message `msg` of `send_msgs_`, its current
frame and the messages behind it. -/
def finishFrame (t : TransportTCP) (msg : Message) (frame : Frame) (rest : List Message) :
    Except Fault TransportTCP :=
  if msg.frameFilled = frame.size then
    let msg := { msg with frameInd := msg.frameInd + 1 }
    if msg.frameInd.toNat < msg.frames.length then
      match msg.frames[msg.frameInd.toNat]? with
      | none => .error .outOfRange
      | some next =>
        let msg := { msg with frameFilled := 0, frameSz := next.size, frameSzFilled := 0 }
        .ok { t with sendMsgs := msg :: rest }
    else
      let t := { t with sendMsgs := rest }
      if rest.length = 0 then t.disableWrite else .ok t
  else
    .ok { t with sendMsgs := msg :: rest }

def writeFrame (t : TransportTCP) (send : Send) (msg : Message) (rest : List Message) :
    Except Fault TransportTCP :=
  match msg.frames[msg.frameInd.toNat]? with
  | none => .error .outOfRange
  | some frame =>
    if msg.frameSzFilled < 4 then do
      let left := 4 - msg.frameSzFilled
      let (wrote, t) ← t.write send ((bytes msg.frameSz).drop msg.frameSzFilled.toNat) left
      if 0 ≤ wrote then
        t.finishFrame { msg with frameSzFilled := msg.frameSzFilled + wrapU32 wrote } frame rest
      else
        t.close
    else
      let left := frame.size - msg.frameFilled
      if 0 < left then do
        let (result, t) ← t.write send (frame.data.drop msg.frameFilled.toNat) left
        -- The result is stored in a `uint32_t`, so the test below is always true.
        let wrote := wrapU32 result
        if 0 ≤ wrote then
          t.finishFrame { msg with frameFilled := msg.frameFilled + wrote } frame rest
        else
          t.close
      else
        t.finishFrame msg frame rest

def writeMessage (t : TransportTCP) (send : Send) : Except Fault TransportTCP :=
  match t.sendMsgs with
  | [] => .error .rosBreak
  | msg :: rest =>
    if msg.numframesFilled < 4 then do
      let left := 4 - msg.numframesFilled
      let (wrote, t) ← t.write send ((bytes msg.numframes).drop msg.numframesFilled.toNat) left
      if 0 ≤ wrote then
        .ok { t with
          sendMsgs := { msg with
            numframesFilled := msg.numframesFilled + wrapU32 wrote } :: rest }
      else
        t.close
    else
      t.writeFrame send msg rest

def sendFrames (t : TransportTCP) (frames : List Frame) : Except Fault TransportTCP :=
  if !t.messages then .error .rosBreak
  else if t.filter = 0 then .error .divisionByZero
  else
    let t := { t with msgCounter := (t.msgCounter + 1).tmod t.filter }
    if t.msgCounter ≠ 0 then .ok t
    else
      match frames[0]? with
      | none => .error .outOfRange
      | some first => do
        let msg : Message :=
          { frames := frames
            numframes := UInt32.ofNat frames.length
            numframesFilled := 0
            frameInd := 0
            frameFilled := 0
            frameSz := first.size
            frameSzFilled := 0 }
        let t ← if t.sendMsgs.isEmpty then t.enableWrite else .ok t
        .ok { t with sendMsgs := t.sendMsgs ++ [msg] }

def sendMessage (t : TransportTCP) (buffer : List UInt8) (size : UInt32) :
    Except Fault TransportTCP :=
  t.sendFrames [⟨buffer, size⟩]

/-! ### Poll events -/

/-- `socketUpdate(events)` of a transport that does not listen. -/
def socketUpdate (t : TransportTCP) (events : PollEvents) (recv : Recv) (send : Send) :
    Except Fault TransportTCP :=
  if t.closed then .ok t
  else do
    let t ← if events &&& POLLIN ≠ 0 ∧ t.expectingRead ∧ t.readCb then t.readMessage recv
      else .ok t
    let t ← if events &&& POLLOUT ≠ 0 ∧ t.expectingWrite ∧ t.writeCb then t.writeMessage send
      else .ok t
    if events &&& POLLERR ≠ 0 ∨ events &&& POLLHUP ≠ 0 ∨ events &&& POLLNVAL ≠ 0 then t.close
    else .ok t

end TransportTCP

end Ros2Proto

import ReticulumSdk.Rpc.PickleLaws
import ReticulumSdk.Rpc.Session

/-! Who cannot answer a challenge reaches nothing, and who can is served what was asked for. -/

namespace Reticulum

variable {ν α β : Type} {readValue : ValueReader} {serve : RpcTask → ν → List Bytes × ν}
  {connection after : RpcConnection ν} {random : Bytes} {readiness : Readiness}

/-- The connection that a part of the exchange leaves. -/
def leaves : EStateM.Result RpcError (RpcConnection ν) α → RpcConnection ν
  | .ok _ connection => connection
  | .error _ connection => connection

/-- A part of the exchange, and what follows it where it does not fail. -/
theorem rpc_bind (first : Rpc ν α) (next : α → Rpc ν β) (connection : RpcConnection ν) :
    (first >>= next) connection = match first connection with
      | .ok value after => next value after
      | .error fault after => .error fault after := by
  cases done : first connection <;> simp [Bind.bind, EStateM.bind, done]

/-- The first frame of a stream answers the challenge under the key. -/
def AnswersChallenge (authKey random incoming : Bytes) : Prop :=
  ∃ response rest, readPyConnectionFrame PY_CONN_AUTH_MAX_FRAME incoming = .ok (response, rest) ∧
    rpcResponseIsAuthenticated (rpcChallenge random) response (some authKey) = true

/-- Writing a frame adds it, or leaves the connection as it was. -/
theorem writePyConnectionFrame_leaves (data : Bytes) (connection : RpcConnection ν) :
    (∃ fault, writePyConnectionFrame data connection = .error fault connection) ∨
      ∃ room, writePyConnectionFrame data connection =
        .ok () { connection with room := room, written := connection.written ++ [data] } := by
  unfold writePyConnectionFrame
  split
  · exact .inl ⟨_, rfl⟩
  · split
    · exact .inl ⟨_, rfl⟩
    · exact .inr ⟨_, rfl⟩

/-- Trying to write a frame goes on either way. -/
theorem tryWrite_leaves (data : Bytes) (connection : RpcConnection ν) :
    ∃ room sent, tryCatch (writePyConnectionFrame data) (fun _ => return) connection =
      .ok () { connection with room := room, written := connection.written ++ sent } ∧ sent <+: [data] := by
  simp only [tryCatch, tryCatchThe, MonadExceptOf.tryCatch, EStateM.tryCatch]
  rcases writePyConnectionFrame_leaves data connection with ⟨fault, failed⟩ | ⟨room, sent⟩
  · refine ⟨connection.room, [], ?_, List.nil_prefix⟩
    rw [failed]
    simp only [pure, EStateM.pure, List.append_nil]
    rfl
  · exact ⟨room, [data], by rw [sent], List.prefix_rfl⟩

/-- Without an answer to the challenge the exchange fails, and at most the refusal is sent. -/
theorem rpcAuthenticate_stranger {authKey : Bytes}
    (stranger : ¬ AnswersChallenge authKey random connection.incoming) :
    ∃ fault after, rpcAuthenticate (some authKey) random readiness connection = .error fault after ∧
      after.node = connection.node ∧
      after.written <+: connection.written ++ [rpcChallenge random, PY_CONN_FAILURE] := by
  unfold rpcAuthenticate
  rw [rpc_bind]
  rcases writePyConnectionFrame_leaves (rpcChallenge random) connection with
    ⟨fault, failed⟩ | ⟨room, sent⟩
  · -- The challenge does not go out.
    rw [failed]
    exact ⟨fault, connection, rfl, rfl, List.prefix_append _ _⟩
  · rw [sent]
    simp only [rpc_bind, readFrame]
    cases read : readPyConnectionFrame PY_CONN_AUTH_MAX_FRAME connection.incoming with
    | error fault =>
      -- No whole frame comes.
      refine ⟨fault, _, rfl, rfl, ?_⟩
      exact (List.prefix_append_right_inj _).mpr ⟨[PY_CONN_FAILURE], rfl⟩
    | ok frame =>
      obtain ⟨response, rest⟩ := frame
      -- The frame that comes is none of the two answers.
      have wrong : ¬ rpcResponseIsAuthenticated (rpcChallenge random) response (some authKey) = true :=
        fun right => stranger ⟨response, rest, read, right⟩
      simp only [wrong]
      rw [if_neg Bool.false_ne_true, rpc_bind]
      obtain ⟨room', sent, tried, part⟩ := tryWrite_leaves PY_CONN_FAILURE
        { incoming := rest, room := room, written := connection.written ++ [rpcChallenge random],
          node := connection.node }
      rw [tried]
      refine ⟨_, _, rfl, rfl, ?_⟩
      rw [List.append_assoc]
      exact (List.prefix_append_right_inj _).mpr ((List.prefix_cons_inj _).mpr part)

/-- A part of the exchange that does not touch the node. -/
def Quiet (part : Rpc ν α) : Prop := ∀ connection, (leaves (part connection)).node = connection.node

/-- Parts one after another do not, if none of them does. -/
theorem Quiet.bind {first : Rpc ν α} {next : α → Rpc ν β} (quiet : Quiet first)
    (rest : ∀ value, Quiet (next value)) : Quiet (first >>= next) := by
  intro connection
  have here := quiet connection
  rw [rpc_bind]
  cases done : first connection with
  | error fault after =>
    rw [done] at here
    exact here
  | ok value after =>
    rw [done] at here
    exact (rest value after).trans here

theorem quiet_pure (value : α) : Quiet (pure value : Rpc ν α) := fun _ => rfl

theorem quiet_throw (fault : RpcError) : Quiet (throw fault : Rpc ν α) := fun _ => rfl

theorem quiet_write (data : Bytes) : Quiet (writePyConnectionFrame (ν := ν) data) := by
  intro connection
  rcases writePyConnectionFrame_leaves data connection with ⟨fault, failed⟩ | ⟨room, sent⟩
  · rw [failed]
    rfl
  · rw [sent]
    rfl

theorem quiet_read (maxSize : Nat) : Quiet (readFrame (ν := ν) maxSize) := by
  intro connection
  unfold readFrame
  split <;> rfl

theorem quiet_readIfReady (maxSize : Nat) (readiness : Readiness) :
    Quiet (readFrameIfReady (ν := ν) maxSize readiness) := by
  intro connection
  have read := quiet_read maxSize connection
  unfold readFrameIfReady
  cases readiness with
  | late => rfl
  | failed => rfl
  | visible count =>
    dsimp only
    split
    · rfl
    · split
      · rename_i done
        rw [done] at read
        exact read
      · rename_i failed
        rw [failed] at read
        exact read

/-- Waiting for the welcome does not touch the node. -/
theorem quiet_awaitWelcome : Quiet (awaitWelcome (ν := ν)) := by
  refine (quiet_read _).bind fun welcome => ?_
  split
  · exact quiet_pure ()
  · split <;> exact quiet_throw _

/-- Neither does answering the peer. -/
theorem quiet_answer (authKey : Option Bytes) (readiness : Readiness) :
    Quiet (rpcAnswerPeerChallenge (ν := ν) authKey readiness) := by
  refine (quiet_readIfReady _ _).bind fun challenge => ?_
  cases challenge with
  | none => exact quiet_pure ()
  | some challenge =>
    dsimp only
    split
    · cases authKey with
      | none => exact quiet_throw _
      | some authKey => exact (quiet_write _).bind fun _ => quiet_awaitWelcome
    · exact quiet_throw _

/-- The whole exchange does not touch the node. -/
theorem quiet_authenticate (authKey : Option Bytes) (random : Bytes) (readiness : Readiness) :
    Quiet (rpcAuthenticate (ν := ν) authKey random readiness) := by
  refine (quiet_write _).bind fun _ => (quiet_read _).bind fun response => ?_
  split
  · exact (quiet_write _).bind fun _ => quiet_answer authKey readiness
  · refine Quiet.bind (fun connection => ?_) fun _ => quiet_throw _
    obtain ⟨room, sent, tried, -⟩ := tryWrite_leaves PY_CONN_FAILURE connection
    rw [tried]
    rfl

/-- Nor does sending an answer. -/
theorem quiet_writeFrames (frames : List Bytes) : Quiet (writeFrames (ν := ν) frames) := by
  induction frames with
  | nil => exact quiet_pure ()
  | cons data frames ih => exact (quiet_write _).bind fun _ => ih

/-- What a connection is offered: the bytes of a generator, what can be seen in time, and the frames that go out. -/
structure RpcSession where
  random : Bytes
  readiness : Readiness
  incoming : Bytes
  room : Nat

namespace RpcSession

/-- The connection of a session to a node. -/
def connect (session : RpcSession) (node : ν) : RpcConnection ν :=
  ⟨session.incoming, session.room, [], node⟩

/-- A session, and the connection that it leaves. -/
def run (readValue : ValueReader) (serve : RpcTask → ν → List Bytes × ν) (authKey : Option Bytes)
    (session : RpcSession) (node : ν) : RpcConnection ν :=
  leaves (handleRpcClient readValue serve authKey session.random session.readiness
    (session.connect node))

/-- A session serves one task or none, and the node is left as it was otherwise. -/
theorem run_node (authKey : Option Bytes) (session : RpcSession) (node : ν) :
    (session.run readValue serve authKey node).node = node ∨
      ∃ task, (session.run readValue serve authKey node).node = (serve task node).2 := by
  unfold run handleRpcClient
  have exchanged := quiet_authenticate authKey session.random session.readiness (session.connect node)
  rw [rpc_bind]
  cases done : rpcAuthenticate authKey session.random session.readiness (session.connect node) with
  | error fault after =>
    rw [done] at exchanged
    exact .inl exchanged
  | ok _ after =>
    rw [done] at exchanged
    have here : after.node = node := exchanged
    simp only [rpc_bind]
    have read := quiet_read maxRequest after
    cases request : readFrame maxRequest after with
    | error fault later =>
      rw [request] at read
      exact .inl (Eq.trans read here)
    | ok data later =>
      rw [request] at read
      have same : later.node = node := Eq.trans read here
      dsimp only
      cases readRpcValue readValue data with
      | error fault => exact .inl same
      | ok value =>
        refine .inr ⟨rpcTask value, ?_⟩
        have sent := quiet_writeFrames (serve (rpcTask value) later.node).1
          { later with node := (serve (rpcTask value) later.node).2 }
        rw [← same]
        exact sent

/-- Without an answer to its challenge a session leaves the node, and is sent the challenge and a refusal at most. -/
theorem run_stranger {authKey : Bytes} {session : RpcSession} (node : ν)
    (stranger : ¬ AnswersChallenge authKey session.random session.incoming) :
    (session.run readValue serve (some authKey) node).node = node ∧
      (session.run readValue serve (some authKey) node).written <+:
        [rpcChallenge session.random, PY_CONN_FAILURE] := by
  obtain ⟨fault, after, refused, same, sent⟩ :=
    @rpcAuthenticate_stranger _ (session.connect node) _ session.readiness _ stranger
  have ended : session.run readValue serve (some authKey) node = after := by
    rw [run, handleRpcClient, rpc_bind, refused]
    rfl
  rw [ended]
  exact ⟨same, sent⟩

/--
Over any sessions, whatever their bytes, whatever can be seen in time and wherever they break, the node
ends as if it had served some tasks in turn, at most one for each session and none for a session that
does not begin with the digest of its own challenge; such a session is sent nothing but the challenge
and a refusal.
-/
theorem rpc_strangers_reach_nothing (readValue : ValueReader) (serve : RpcTask → ν → List Bytes × ν)
    (authKey : Bytes) (sessions : List RpcSession) (node : ν) :
    (∃ tasks : List (Option RpcTask), List.Forall₂ (fun session task =>
        task.isSome → AnswersChallenge authKey session.random session.incoming) sessions tasks ∧
      sessions.foldl (fun node session => (session.run readValue serve (some authKey) node).node) node =
        tasks.reduceOption.foldl (fun node task => (serve task node).2) node) ∧
    ∀ session ∈ sessions, ¬ AnswersChallenge authKey session.random session.incoming → ∀ node,
      (session.run readValue serve (some authKey) node).written <+:
        [rpcChallenge session.random, PY_CONN_FAILURE] := by
  refine ⟨?_, fun session _ stranger node => (run_stranger node stranger).2⟩
  -- The sessions come one after another, and each serves a task or none.
  induction sessions generalizing node with
  | nil => exact ⟨[], .nil, rfl⟩
  | cons session sessions ih =>
    obtain ⟨tasks, paired, served⟩ := ih (session.run readValue serve (some authKey) node).node
    by_cases answers : AnswersChallenge authKey session.random session.incoming
    · rcases @run_node _ readValue serve (some authKey) session node with same | ⟨task, same⟩
      · exact ⟨none :: tasks, .cons (fun _ => answers) paired, by
          rw [List.foldl_cons, served, same]; rfl⟩
      · exact ⟨some task :: tasks, .cons (fun _ => answers) paired, by
          rw [List.foldl_cons, served, same]; rfl⟩
    · refine ⟨none :: tasks, .cons (fun some => absurd some (by simp)) paired, ?_⟩
      rw [List.foldl_cons, served, (run_stranger node answers).1]
      rfl

end RpcSession

/-- What a client does that knows the key. -/
structure KeyHolder where
  /-- It sends its digest without the name of the digest. -/
  raw : Bool
  /-- It has a challenge of its own for the node. -/
  challenge : Option Bytes
  request : Bytes

namespace KeyHolder

/-- Its answer to the challenge. -/
def answer (holder : KeyHolder) (authKey random : Bytes) : Bytes :=
  let digest := rpcHmacResponse authKey (digestName ++ random)
  if holder.raw then digest.drop digestName.length else digest

/-- The frames that it sends, one after another. -/
def sends (holder : KeyHolder) (authKey random : Bytes) : List Bytes :=
  holder.answer authKey random ::
    (holder.challenge.elim [] fun body => [PY_CONN_CHALLENGE ++ body, PY_CONN_WELCOME]) ++ [holder.request]

/-- The frames of the exchange that it is sent. -/
def told (holder : KeyHolder) (authKey random : Bytes) : List Bytes :=
  [rpcChallenge random, PY_CONN_WELCOME] ++ (holder.challenge.map (rpcHmacResponse authKey)).toList

variable {holder : KeyHolder} {authKey : Bytes}

end KeyHolder

/-- The bytes of a request for a value: its MessagePack, or any pickle of it that names its protocol. -/
def RequestFor (readValue : ValueReader) (value : Value) (data : Bytes) : Prop :=
  readValue data = some (value, []) ∨
    ∃ body tail, data = 0x80 :: body ++ 0x2E :: tail ∧ Pushes [value] (0x80 :: body)

/-- Either is understood: what opens a pickle is an empty map to MessagePack, with bytes left behind it. -/
theorem RequestFor.read {value : Value} {data : Bytes} (request : RequestFor readValue value data)
    (emptyMap : ∀ rest, readValue (0x80 :: rest) = some (.map [], rest)) :
    readRpcValue readValue data = .ok value := by
  unfold readRpcValue readMsgpackValue
  rcases request with whole | ⟨body, tail, rfl, pickled⟩
  · rw [whole]
  · -- The pickle is read once MessagePack has given up on it.
    have left := emptyMap (body ++ 0x2E :: tail)
    have read := pickled.read tail
    rw [List.cons_append] at read ⊢
    rw [left, read]
    cases body <;> rfl

end Reticulum

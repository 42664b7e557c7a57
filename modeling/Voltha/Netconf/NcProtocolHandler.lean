import Voltha.Lib.Exec
import Voltha.Netconf.NcConnection

/-!
# Netconf の rpc の処理

`netconf/session/nc_protocol_handler.py`。一つの message の rpc を順に handler に渡し、応答を返す。
handler の中身は入力とし、待つ間に接続が切れることも入力に含める。

* 応答が session を閉じるものなら、返した後に `close` する。**loop は続く**
* `BadMsg` は、1.1 なら誤りの応答を返し、1.0 なら返さずに `close` する。**loop は続く**
* 他の例外は、誤りの応答を返す。ただし `get_reply_msg` を持つ class は無い

誤りの応答を作るところで `AttributeError` が飛び、`handle_request` の外へ抜ける。

届いた message は byte の `str` で、`msg.encode('utf-8')` はまずそれを ASCII として読む。0x80 以上の
byte があれば `UnicodeDecodeError` が飛び、どの `except` にも掛からない。応答の文字列は `unicode` で、
`send_msg` の `format` が ASCII でない文字に `UnicodeEncodeError` を投げる。

応答の node から文字列を作る `etree.tounicode` は、変数 `tounicode` のままにする。
-/

namespace Voltha.Netconf

variable {N : Type}

/-! ## 型 -/

/-- `execute` の結果。`node` は応答の中身で、element でも element の列でもなければ `none`。 -/
inductive Executed (N : Type) where
  | response (node : Option N) (closeSession : Bool)
  | nothing
  | raised (e : NcError)
deriving DecidableEq, Repr

/-- `get_rpc_handler` の結果。`lost` は、handler を待つ間に接続が切れること。 -/
inductive Lookup (N : Type) where
  | handler (lost : Bool) (result : Executed N)
  | none
  | badMsg
deriving DecidableEq, Repr

/-- rpc の element。 -/
structure Rpc (N : Type) where
  attrib : List (String × String)
  lookup : Lookup N
deriving DecidableEq, Repr

/--
届いた message の byte と、lxml の読んだ結果。

`rpcs` は XPath が選んだ rpc の列で、XML として読めなければ `none`。
-/
structure Message (N : Type) where
  bytes : List UInt8
  rpcs : Option (List (Rpc N))
deriving DecidableEq, Repr

/-- `msg.encode('utf-8')` が通る。`str` はまず ASCII として読まれる。 -/
def Message.encodes (msg : Message N) : Bool := Ascii.bytes msg.bytes

/-- 送った応答。属性は、元の rpc のもの。 -/
structure Reply (N : Type) where
  attrib : List (String × String)
  node : N
deriving DecidableEq, Repr

/--
`NetconfProtocolHandler`。`connected` と `connExiting` は接続のもの、`registered` は session
manager にあること。`executed` は動かした handler の rpc、`sent` は送った応答。
-/
structure Handler (N : Type) where
  newFraming : Bool
  sessionOpened : Bool
  exiting : Bool
  registered : Bool
  connected : Bool
  connExiting : Bool
  executed : List (Rpc N)
  sent : List (Reply N)
deriving DecidableEq, Repr

namespace Handler

/-- `stop(reason)` と `close()`。どちらも同じことをする。 -/
def close (h : Handler N) : Handler N :=
  if h.exiting then h
  else
    { h with
      exiting := true
      connExiting := h.connExiting || h.sessionOpened
      registered := false
      sessionOpened := false }

/-- `connectionLost(reason)`。 -/
def connectionLost (h : Handler N) : Handler N :=
  if h.connExiting then { h with connected := false } else close { h with connected := false }

end Handler

/-! ## 送信 -/

/-- `Handler` の上の計算。 -/
abbrev Serve (N : Type) := Exec (Handler N) NcError

/-- `C.XML_HEADER`。 -/
def XML_HEADER : Text := "<?xml version=\"1.0\" encoding=\"utf-8\"?>".toList

section Replying

variable (tounicode : Reply N → Text)

/--
`send_message(msg)`。

`sent` に入るのは、全部が書かれた応答だけである。例外で切れた応答の初めの部分は数えない。
-/
def sendMessage (msg : Reply N) : Serve N Unit := do
  let h ← Exec.read
  match (sendMsg h.connected MAXSSHBUF h.newFraming (XML_HEADER ++ tounicode msg)).1 with
  | .ok () => Exec.modify fun h => { h with sent := h.sent ++ [msg] }
  | .error e => Exec.raise e

/-- `send_rpc_reply(rpc_reply, origmsg)`。 -/
def sendRpcReply (rpcReply : Option N) (origmsg : Rpc N) : Serve N Unit := do
  let node ← Exec.ofOption .typeError rpcReply
  sendMessage tounicode ⟨origmsg.attrib, node⟩

/-- 誤りを作るときの `origmsg`。 -/
inductive Origin (N : Type) where
  | msg
  | element (rpc : Rpc N)

/-- `RPCError.__init__(origmsg, …)`。文字列には `attrib` が無い。 -/
def newRpcError (e : NcError) : Origin N → Serve N NcError
  | .msg => Exec.raise .attributeError
  | .element _ => pure e

/-- `error.get_reply_msg()`。どの class にも無い。 -/
def getReplyMsg (_ : NcError) : Serve N (Reply N) := Exec.raise .attributeError

/-! ## rpc の処理 -/

/-- `yield rpc_handler.execute()`。待つ間に接続が切れれば、`connectionLost` が先に動く。 -/
def execute (rpc : Rpc N) (lost : Bool) (result : Executed N) :
    Serve N (Option (Option N × Bool)) := do
  Exec.modify fun h => { h with executed := h.executed ++ [rpc] }
  if lost then Exec.modify Handler.connectionLost
  match result with
  | .response node closeSession => pure (some (node, closeSession))
  | .nothing => pure none
  | .raised e => Exec.raise e

/-- loop の `try` の中。 -/
def tryRpc (rpc : Rpc N) : Serve N Unit :=
  match rpc.lookup with
  | .badMsg => Exec.raise .badMsg
  | .handler lost result => do
    match ← execute rpc lost result with
    -- `response.is_error` を読む
    | none => Exec.raise .attributeError
    | some (node, closeSession) => do
      sendRpcReply tounicode node rpc
      if closeSession then Exec.modify Handler.close
  | .none => do
    let e ← newRpcError .notImpl .msg
    Exec.raise e

/-- loop の `except`。 -/
def exceptRpc (rpc : Rpc N) : NcError → Serve N Unit
  | .badMsg => do
    let h ← Exec.read
    if h.newFraming then do
      let msg ← getReplyMsg .badMsg
      sendMessage tounicode msg
    else Exec.modify Handler.close
  | .notImpl => do
    let msg ← getReplyMsg .notImpl
    sendMessage tounicode msg
  | .missingElement => do
    let msg ← getReplyMsg .missingElement
    sendMessage tounicode msg
  | ex => do
    let error ← newRpcError ex (.element rpc)
    let msg ← getReplyMsg error
    sendMessage tounicode msg

/-- loop の一回。 -/
def handleRpc (rpc : Rpc N) : Serve N Unit :=
  (tryRpc tounicode rpc).tryExcept (exceptRpc tounicode rpc)

/-- loop。 -/
def handleRpcs : List (Rpc N) → Serve N Unit
  | [] => pure ()
  | rpc :: rpcs => do
    handleRpc tounicode rpc
    handleRpcs rpcs

/-- 読めない message の処理。飛ぶのは `AttributeError` だけである。 -/
def handleMalformed : Serve N Unit :=
  Exec.tryExcept
    (do
      let error ← newRpcError .badMsg .msg
      let msg ← getReplyMsg error
      sendMessage tounicode msg)
    fun _ => Exec.modify Handler.close

/-- `handle_request(msg)`。 -/
def handleRequest (msg : Message N) : Serve N Unit := do
  let h ← Exec.read
  if h.sessionOpened then do
    Exec.require (msg.encodes = true) .unicodeDecodeError
    match msg.rpcs with
    | none => handleMalformed tounicode
    | some [] => Exec.raise .sessionError
    | some rpcs => handleRpcs tounicode rpcs

end Replying

end Voltha.Netconf

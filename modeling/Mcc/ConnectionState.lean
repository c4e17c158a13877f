import Mathlib

/-!
The states of a TCP connection, in the order and with the numbers of `tcp_in.h`.
-/

namespace Mcc

inductive TcpState where
  | closed
  | listen
  | synSent
  | synRcvd
  | established
  | finWait1
  | finWait2
  | closeWait
  | closing
  | lastAck
  | timeWait
  deriving Repr, DecidableEq

def TcpState.number : TcpState → Nat
  | .closed => 0
  | .listen => 1
  | .synSent => 2
  | .synRcvd => 3
  | .established => 4
  | .finWait1 => 5
  | .finWait2 => 6
  | .closeWait => 7
  | .closing => 8
  | .lastAck => 9
  | .timeWait => 10

def TcpState.opening : TcpState → Bool
  | .listen | .synSent | .synRcvd => true
  | _ => false

end Mcc

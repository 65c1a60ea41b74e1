/-
The handshake of the shell protocol (`fortiq-shell/src/lib.rs`): the operator's answer to a challenge, the bytes it
signs, and how it is read from a stream. The JSON decoder is external.
-/
import Fortiq.Node.Basic

namespace Fortiq

abbrev Challenge := Vector UInt8 32

structure ShellNextHandshake where
  networkId : NetworkId
  ticketId : String
  operatorTransportPeerId : String
  sessionCertificate : OperatorSessionCertificate
  challengeSignature : List UInt8
deriving DecidableEq, Repr

namespace ShellNextHandshake

def signatureDomain : String := "FORTIQ-SHELL-v3:"

def signingPayload (networkId : NetworkId) (ticketId operatorTransportPeerId : String) (challenge : Challenge) :
    List UInt8 :=
  utf8 signatureDomain ++ networkId.bytes.toList ++ lengthPrefixed (utf8 ticketId) ++
    lengthPrefixed (utf8 operatorTransportPeerId) ++ challenge.toList

/-- The longest handshake that is read. -/
def maxLength : Nat := 16 * 1024

/-- A length in two bytes, and that much JSON; a stream that ends early or sends more than the limit is refused. -/
def readFromAsync (fromJson : List UInt8 → Option ShellNextHandshake) : List UInt8 → Option ShellNextHandshake
  | high :: low :: stream =>
    let len := high.toNat * 256 + low.toNat
    if len > maxLength then none
    else if stream.length < len then none
    else fromJson (stream.take len)
  | _ => none

end ShellNextHandshake

/-- The byte that answers a handshake. -/
inductive AuthorizationCode where
  | authorized
  | deniedNoTicket
  | deniedBusy
  | deniedTicketClosed
  | deniedInvalidAuthority
deriving DecidableEq, Repr

def AuthorizationCode.byte : AuthorizationCode → UInt8
  | authorized => 1
  | deniedNoTicket => 2
  | deniedBusy => 3
  | deniedTicketClosed => 4
  | deniedInvalidAuthority => 6

end Fortiq

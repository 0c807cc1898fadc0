/-! The events that connections and queues carry. -/

set_option autoImplicit false

namespace Aio4c

inductive Event where
  | init
  | connecting
  | connected
  | read
  | inboundData
  | write
  | outboundData
  | pendingClose
  | close
  | free
  deriving DecidableEq, Repr

end Aio4c

import Aio4c.Connection

/-! The hand-over of a connection to the threads of its pipe, as the steps that
the accepting thread takes in order, and the items that the reader's queue holds. -/

set_option autoImplicit false

namespace Aio4c

/-- A step of the accepting thread. `connected` stands for the state that the
completing `ConnectionManagedBy` sets. -/
inductive HandOverStep where
  | enqueueDataItem
  | addSystemHandler (event : Event) (owner : ConnectionOwner)
  | managedBy (owner : ConnectionOwner)
  | connected
  deriving DecidableEq, Repr

def writerManageConnection : List HandOverStep :=
  [.addSystemHandler .outboundData .writer, .addSystemHandler .close .writer, .managedBy .writer]

def workerManageConnection : List HandOverStep :=
  [.addSystemHandler .inboundData .worker, .addSystemHandler .close .worker, .managedBy .worker] ++
    writerManageConnection

def readerManageConnection : List HandOverStep :=
  [.enqueueDataItem, .addSystemHandler .pendingClose .reader, .addSystemHandler .close .reader] ++
    workerManageConnection

/-- The items of the reader's queue that refer to the connection. -/
inductive ReaderItem where
  | data
  | event (event : Event)
  deriving DecidableEq, Repr

end Aio4c

/-! The exception classes of `redis/exceptions.py`, with the built-in classes the
modelled code raises or catches, and the parsing that `AskError` does of its
message. -/

namespace RedisPy

inductive ExcClass where
  -- built in
  | BaseException | KeyboardInterrupt | CancelledError
  | Exception | OSError | SocketTimeout | BlockingIOError
  | ValueError | UnicodeDecodeError | TypeError | KeyError | IndexError | AttributeError
  | RuntimeError | RecursionError | UnboundLocalError
  | UnicodeEncodeError | OverflowError | StopIteration | AssertionError
  /-- `queue.Full` -/
  | Full
  /-- A class of the user's own, derived from `Exception` alone. -/
  | user (name : String)
  -- redis/exceptions.py
  | RedisError | ConnectionError | TimeoutError | AuthenticationError | AuthorizationError
  | BusyLoadingError | InvalidResponse | ResponseError | DataError | PubSubError | WatchError
  | NoScriptError | OutOfMemoryError | ExecAbortError | ReadOnlyError | NoPermissionError
  | ModuleError | LockError | LockNotOwnedError | AuthenticationWrongNumberOfArgsError
  | RedisClusterException | ClusterError | ClusterDownError | AskError | TryAgainError
  | ClusterCrossSlotError | MovedError | MasterDownError | SlotNotCoveredError
  | MaxConnectionsError | ChildDeadlockedError
  /-- of `redis/sentinel.py` -/
  | MasterNotFoundError
  deriving DecidableEq, Repr

namespace ExcClass

/-- The classes an instance is an instance of, its own class included. -/
def mro : ExcClass → List ExcClass
  | BaseException => [BaseException]
  | KeyboardInterrupt => [KeyboardInterrupt, BaseException]
  | CancelledError => [CancelledError, BaseException]
  | Exception => [Exception, BaseException]
  | OSError => [OSError, Exception, BaseException]
  | SocketTimeout => [SocketTimeout, OSError, Exception, BaseException]
  | BlockingIOError => [BlockingIOError, OSError, Exception, BaseException]
  | ValueError => [ValueError, Exception, BaseException]
  | UnicodeDecodeError => [UnicodeDecodeError, ValueError, Exception, BaseException]
  | TypeError => [TypeError, Exception, BaseException]
  | KeyError => [KeyError, Exception, BaseException]
  | IndexError => [IndexError, Exception, BaseException]
  | AttributeError => [AttributeError, Exception, BaseException]
  | RuntimeError => [RuntimeError, Exception, BaseException]
  | RecursionError => [RecursionError, RuntimeError, Exception, BaseException]
  | UnboundLocalError => [UnboundLocalError, Exception, BaseException]
  | UnicodeEncodeError => [UnicodeEncodeError, ValueError, Exception, BaseException]
  | OverflowError => [OverflowError, Exception, BaseException]
  | StopIteration => [StopIteration, Exception, BaseException]
  | AssertionError => [AssertionError, Exception, BaseException]
  | Full => [Full, Exception, BaseException]
  | user name => [user name, Exception, BaseException]
  | RedisError => [RedisError, Exception, BaseException]
  | ConnectionError => [ConnectionError, RedisError, Exception, BaseException]
  | TimeoutError => [TimeoutError, RedisError, Exception, BaseException]
  | AuthenticationError => [AuthenticationError, ConnectionError, RedisError, Exception,
      BaseException]
  | AuthorizationError => [AuthorizationError, ConnectionError, RedisError, Exception,
      BaseException]
  | BusyLoadingError => [BusyLoadingError, ConnectionError, RedisError, Exception, BaseException]
  | InvalidResponse => [InvalidResponse, RedisError, Exception, BaseException]
  | ResponseError => [ResponseError, RedisError, Exception, BaseException]
  | DataError => [DataError, RedisError, Exception, BaseException]
  | PubSubError => [PubSubError, RedisError, Exception, BaseException]
  | WatchError => [WatchError, RedisError, Exception, BaseException]
  | NoScriptError => [NoScriptError, ResponseError, RedisError, Exception, BaseException]
  | OutOfMemoryError => [OutOfMemoryError, ResponseError, RedisError, Exception, BaseException]
  | ExecAbortError => [ExecAbortError, ResponseError, RedisError, Exception, BaseException]
  | ReadOnlyError => [ReadOnlyError, ResponseError, RedisError, Exception, BaseException]
  | NoPermissionError => [NoPermissionError, ResponseError, RedisError, Exception, BaseException]
  | ModuleError => [ModuleError, ResponseError, RedisError, Exception, BaseException]
  | LockError => [LockError, RedisError, ValueError, Exception, BaseException]
  | LockNotOwnedError => [LockNotOwnedError, LockError, RedisError, ValueError, Exception,
      BaseException]
  | AuthenticationWrongNumberOfArgsError => [AuthenticationWrongNumberOfArgsError, ResponseError,
      RedisError, Exception, BaseException]
  | RedisClusterException => [RedisClusterException, Exception, BaseException]
  | ClusterError => [ClusterError, RedisError, Exception, BaseException]
  | ClusterDownError => [ClusterDownError, ClusterError, ResponseError, RedisError, Exception,
      BaseException]
  | AskError => [AskError, ResponseError, RedisError, Exception, BaseException]
  | TryAgainError => [TryAgainError, ResponseError, RedisError, Exception, BaseException]
  | ClusterCrossSlotError => [ClusterCrossSlotError, ResponseError, RedisError, Exception,
      BaseException]
  | MovedError => [MovedError, AskError, ResponseError, RedisError, Exception, BaseException]
  | MasterDownError => [MasterDownError, ClusterDownError, ClusterError, ResponseError, RedisError,
      Exception, BaseException]
  | SlotNotCoveredError => [SlotNotCoveredError, RedisClusterException, Exception, BaseException]
  | MaxConnectionsError => [MaxConnectionsError, ConnectionError, RedisError, Exception,
      BaseException]
  | ChildDeadlockedError => [ChildDeadlockedError, Exception, BaseException]
  | MasterNotFoundError => [MasterNotFoundError, ConnectionError, RedisError, Exception,
      BaseException]

def isSubclass (c d : ExcClass) : Bool := c.mro.contains d

end ExcClass

/-- What `AskError.__init__` reads out of `"<slot> <host>:<port>"`. -/
structure Redirect where
  slot_id : Int
  host : String
  port : Int
  deriving DecidableEq, Repr

/-- An exception instance: its class, `args[0]`, and the fields that `AskError`
and `MovedError` add. -/
structure Exc where
  cls : ExcClass
  msg : String := ""
  redirect : Option Redirect := none
  deriving DecidableEq, Repr

def Exc.isinstance (e : Exc) (c : ExcClass) : Bool := e.cls.isSubclass c

/-- `isinstance(e, (c₁, c₂, ...))`. -/
def Exc.isinstanceAny (e : Exc) (cs : List ExcClass) : Bool := cs.any e.isinstance

end RedisPy

import TimemoryGotcha.Data
import TimemoryGotcha.Filter
import TimemoryGotcha.Binding
import TimemoryGotcha.Activation
import TimemoryGotcha.Invariant
import TimemoryGotcha.Threads
import TimemoryGotcha.Dispatch
import TimemoryGotcha.Lifecycle
import TimemoryGotcha.Runs
import TimemoryGotcha.Backend
import TimemoryGotcha.Guards
import TimemoryGotcha.Interleaving
import TimemoryGotcha.CrossThread
import TimemoryGotcha.Quiescence

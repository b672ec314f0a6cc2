import Crayon.Table
import Crayon.Region
import Crayon.SortedMap
import Crayon.Command
import Crayon.Operation
import Crayon.Hex
import Crayon.Spelling
import Crayon.Resources
import Crayon.Loans
import Crayon.Protocol
import Crayon.Coordinator
import Crayon.Moves
import Crayon.Consistency
import Crayon.Changes
import Crayon.Effects
import Crayon.Sweep
import Crayon.Refinement
import Crayon.Runs
import Crayon.Dispatch
import Crayon.Accounting
import Crayon.Quantities
import Crayon.Fencing
import Crayon.Dependencies
import Crayon.Propagation
import Crayon.Expiry
import Crayon.Typing
import Crayon.Attempts
import Crayon.Pacing
import Crayon.Fifo
import Crayon.Allocation
import Crayon.HighWater
import Crayon.Server
import Crayon.Records
import Crayon.Permanence
import Crayon.Reclaim
import Crayon.Capacity
import Crayon.Service
import Crayon.Owners
import Crayon.Custody
import Crayon.Client
import Crayon.Batches
import Crayon.Fetch
import Crayon.AtMostOnce
import Crayon.Replay
import Crayon.Deliveries
import Crayon.Retries
import Crayon.Binary
import Crayon.Format
import Crayon.Budget
import Crayon.Upload
import Crayon.Sharing
import Crayon.Retention
import Crayon.RoundTrip
import Crayon.Streaming
import Crayon.Sessions
import Crayon.Redelivery
import Crayon.Wakeups
import Crayon.Polling
import Crayon.Waiting
import Crayon.Gathering
import Crayon.Deletes
import Crayon.Repeats
import Crayon.Duplicates
import Crayon.Exchange
import Crayon.Transport
import Crayon.Correlation
import Crayon.Epochs
import Crayon.Worker
import Crayon.Handling
import Crayon.Frames
import Crayon.Reconnect
import Crayon.Outputs
import Crayon.Progress
import Crayon.Turns
import Crayon.Dataflow
import Crayon.Execution
import Crayon.Values
import Crayon.Handles
import Crayon.Health

import FtPing.Cli.Order
import FtPing.Net.Attribution
import FtPing.Net.Truncation
import FtPing.Net.Quoted
import FtPing.Flow.Bounds
import FtPing.Flow.Timing
import FtPing.Flow.Spacing
import FtPing.Flow.Quota
import FtPing.Flow.Drains
import FtPing.Flow.Stopping
import FtPing.Flow.Finality
import FtPing.Flow.Overdue
import FtPing.Flow.Attentive
import FtPing.Flow.Honest
import FtPing.Flow.Display
import FtPing.Net.Rfc1071
import FtPing.Net.Corruption
import FtPing.Net.WireImage
import FtPing.Output.Summary
import FtPing.Flow.Waking
import FtPing.Cli.LongOptions
import FtPing.Cli.Expressible
import FtPing.Flow.Selection
import FtPing.Process.Streams
import FtPing.Flow.Polling
import FtPing.Flow.Recall
import FtPing.Flow.Emission
import FtPing.Flow.Termination
import FtPing.Flow.Neighbours
import FtPing.Process.Memory
import FtPing.Flow.Ending
import FtPing.Flow.Halting

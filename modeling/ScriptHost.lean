import ScriptHost.Callback.Adder
import ScriptHost.Handle.Shelf
import ScriptHost.Session.Run
import ScriptHost.Resolver.Trial
import ScriptHost.Proofs.Path.Components
import ScriptHost.Proofs.Path.Normal
import ScriptHost.Proofs.Path.Composing
import ScriptHost.Proofs.Path.FixedPoints
import ScriptHost.Proofs.FileTree.Key
import ScriptHost.Proofs.FileTree.BelowRoot
import ScriptHost.Proofs.FileTree.Storing
import ScriptHost.Proofs.Text.ByteOrder
import ScriptHost.Proofs.Text.Decoding
import ScriptHost.Proofs.Text.Stripping
import ScriptHost.Proofs.Value.Positions
import ScriptHost.Proofs.FileTree.Listing
import ScriptHost.Proofs.FileTree.History
import ScriptHost.Proofs.Cursor.RealPath
import ScriptHost.Proofs.Cursor.Ending
import ScriptHost.Proofs.Cursor.Spellings
import ScriptHost.Proofs.Cursor.Agreement
import ScriptHost.Proofs.Resolver.Module
import ScriptHost.Proofs.FileTree.Spelling
import ScriptHost.Proofs.Cursor.Rooted
import ScriptHost.Proofs.Cursor.Reading
import ScriptHost.Proofs.Cursor.Tidy
import ScriptHost.Proofs.Resolver.CacheKey
import ScriptHost.Proofs.Resolver.Crossing
import ScriptHost.Proofs.Host.Armed
import ScriptHost.Proofs.Resolver.Across
import ScriptHost.Proofs.Engine.Balance
import ScriptHost.Proofs.Engine.Entries
import ScriptHost.Proofs.Engine.Lookup
import ScriptHost.Proofs.Host.Balance
import ScriptHost.Proofs.Host.Transfers
import ScriptHost.Proofs.Host.Reclaiming
import ScriptHost.Proofs.Host.Program
import ScriptHost.Proofs.Cursor.Atomic
import ScriptHost.Proofs.Cursor.Climbing
import ScriptHost.Proofs.Cursor.Returning
import ScriptHost.Proofs.Cursor.Landing
import ScriptHost.Proofs.Resolver.Atomic
import ScriptHost.Proofs.Cursor.Twins
import ScriptHost.Proofs.Cursor.WorkingDirectory
import ScriptHost.Proofs.Resolver.Twins
import ScriptHost.Proofs.Handle.OneShot
import ScriptHost.Proofs.Host.Moves
import ScriptHost.Proofs.Host.Ending
import ScriptHost.Proofs.Host.Passing
import ScriptHost.Proofs.Host.Scripts
import ScriptHost.Proofs.Host.Callbacks
import ScriptHost.Proofs.Engine.Growth
import ScriptHost.Proofs.Engine.Evolving
import ScriptHost.Proofs.Host.Commands
import ScriptHost.Proofs.Host.Crossing
import ScriptHost.Proofs.Host.Usage
import ScriptHost.Proofs.Host.Orderly
import ScriptHost.Proofs.Host.Calling
import ScriptHost.Proofs.Host.Lawful
import ScriptHost.Proofs.Host.Outstanding
import ScriptHost.Proofs.Host.Borrows
import ScriptHost.Proofs.Host.RoundTrip
import ScriptHost.Proofs.Host.TableHistory
import ScriptHost.Proofs.Host.Buffers
import ScriptHost.Proofs.Host.Closing
import ScriptHost.Proofs.Host.Inert
import ScriptHost.Proofs.Cursor.Candidates
import ScriptHost.Proofs.FileTree.Entries
import ScriptHost.Proofs.Cursor.Configs
import ScriptHost.Proofs.Resolver.Configs
import ScriptHost.Proofs.Resolver.Resetting
import ScriptHost.Proofs.Memory.Rows
import ScriptHost.Proofs.Memory.Settings
import ScriptHost.Proofs.Host.Checking
import ScriptHost.Proofs.Host.Lookups

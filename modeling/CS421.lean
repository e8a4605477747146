import CS421.Congruential
import CS421.Entry.Common
import CS421.Entry.Mediation
import CS421.Errno
import CS421.Hash.Contents
import CS421.Hash.Ending
import CS421.Hash.Search
import CS421.Hash.Table
import CS421.Keyed
import CS421.Loops
import CS421.Mail.Access
import CS421.Mail.AccessLists
import CS421.Mail.Atomicity
import CS421.Mail.Counts
import CS421.Mail.Creation
import CS421.Mail.Damage
import CS421.Mail.Delivery
import CS421.Mail.Destruction
import CS421.Mail.Edits
import CS421.Mail.Effects
import CS421.Mail.Identity
import CS421.Mail.Interleaving
import CS421.Mail.Lifecycle
import CS421.Mail.Placement
import CS421.Mail.PointerEdits
import CS421.Mail.Pointers
import CS421.Mail.Queries
import CS421.Mail.Refinement
import CS421.Mail.Secrecy
import CS421.Mail.Service
import CS421.Mail.Steps
import CS421.Mail.Store
import CS421.Mail.Syscalls
import CS421.Mail.Teardown
import CS421.Mail.Territory
import CS421.Outcomes
import CS421.Probing
import CS421.Queues
import CS421.Rings
import CS421.Rosters
import CS421.Runs
import CS421.Sandbox.Accounting
import CS421.Sandbox.Bounds
import CS421.Sandbox.Chained
import CS421.Sandbox.Enforcement
import CS421.Sandbox.FirstUse
import CS421.Sandbox.History
import CS421.Sandbox.Hook
import CS421.Sandbox.HookCounts
import CS421.Sandbox.HookReads
import CS421.Sandbox.Independence
import CS421.Sandbox.Isolation
import CS421.Sandbox.Lock
import CS421.Sandbox.Readers
import CS421.Sandbox.Refusals
import CS421.Sandbox.Reports
import CS421.Sandbox.Rows
import CS421.Sandbox.Serial
import CS421.Sandbox.Slots
import CS421.Sandbox.Syscalls
import CS421.Sandbox.Table
import CS421.Shell.Balance
import CS421.Shell.EndOfInput
import CS421.Shell.Growth
import CS421.Shell.Halting
import CS421.Shell.Leaving
import CS421.Shell.Lines
import CS421.Shell.Main
import CS421.Shell.Memory
import CS421.Shell.Program
import CS421.Shell.Reading
import CS421.Shell.Tokens
import CS421.SkipList.Build
import CS421.SkipList.Draws
import CS421.SkipList.Heights
import CS421.SkipList.Prototype
import CS421.SkipList.Repeats
import CS421.SkipList.Search
import CS421.Threads
import CS421.Unwinding
import CS421.Walks
import CS421.Words

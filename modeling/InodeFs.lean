import InodeFs.Bytes.Checksum
import InodeFs.Bytes.Fields
import InodeFs.Bytes.Hex
import InodeFs.Bytes.Utf8
import InodeFs.Cli.Grammar
import InodeFs.Cli.Parse
import InodeFs.Cli.Similarity
import InodeFs.Cli.Text
import InodeFs.Device.Class
import InodeFs.Device.Image
import InodeFs.Device.Memory
import InodeFs.Device.Pages
import InodeFs.Device.Path
import InodeFs.Engine.Changeset
import InodeFs.Engine.Create
import InodeFs.Engine.Format
import InodeFs.Engine.Locate
import InodeFs.Engine.Monad
import InodeFs.Engine.Query
import InodeFs.Engine.Unlink
import InodeFs.Engine.Walk
import InodeFs.Engine.Write
import InodeFs.Error
import InodeFs.Http.Request
import InodeFs.Http.Response
import InodeFs.Http.Text
import InodeFs.Layout.Bitmap
import InodeFs.Layout.DirEntry
import InodeFs.Layout.Geometry
import InodeFs.Layout.Inode
import InodeFs.Layout.SuperBlock
import InodeFs.Log
import InodeFs.Main
import InodeFs.Server.Config
import InodeFs.Server.Queue
import InodeFs.Server.Serve
import InodeFs.Store.Request
import InodeFs.Store.Service
import InodeFs.Text.Space
import InodeFs.Tools.Edit
import InodeFs.Tools.Inspect
import InodeFs.Tools.Mkfs
import InodeFs.Tools.Program
import InodeFs.Tools.Programs
import InodeFs.Units.Allocation
import InodeFs.Units.Number
import InodeFs.Units.Size
import InodeFs.Workspace
import InodeFs.Proofs.Run
import InodeFs.Proofs.Bitmap
import InodeFs.Proofs.Bytes
import InodeFs.Proofs.Records
import InodeFs.Proofs.Locate
import InodeFs.Proofs.Changeset
import InodeFs.Proofs.Commit
import InodeFs.Proofs.Mutation
import InodeFs.Proofs.Bounds
import InodeFs.Proofs.Atomicity
import InodeFs.Proofs.Utf8
import InodeFs.Proofs.Codec
import InodeFs.Proofs.Store
import InodeFs.Proofs.Layout
import InodeFs.Proofs.Disk
import InodeFs.Proofs.Invariant
import InodeFs.Proofs.Format
import InodeFs.Proofs.Reads
import InodeFs.Proofs.Frame
import InodeFs.Proofs.Healthy
import InodeFs.Proofs.Write
import InodeFs.Proofs.Replace
import InodeFs.Proofs.Create
import InodeFs.Proofs.Creation
import InodeFs.Proofs.Created
import InodeFs.Proofs.Unlink
import InodeFs.Proofs.Removal
import InodeFs.Proofs.Removed
import InodeFs.Proofs.Reachable
import InodeFs.Proofs.BitSet
import InodeFs.Proofs.EntrySlots
import InodeFs.Proofs.InodeSlots
import InodeFs.Proofs.Regions
import InodeFs.Proofs.Capacity
import InodeFs.Proofs.Contents
import InodeFs.Proofs.ImageTransactions
import InodeFs.Proofs.Traversal
import InodeFs.Proofs.Mount
import InodeFs.Proofs.Queue
import InodeFs.Proofs.Staging
import InodeFs.Proofs.Transaction
import InodeFs.Proofs.Lines
import InodeFs.Proofs.RequestText
import InodeFs.Proofs.Requests
import InodeFs.Proofs.Paths
import InodeFs.Proofs.Storing
import InodeFs.Proofs.ObjectStore
import InodeFs.Proofs.ByteOrder

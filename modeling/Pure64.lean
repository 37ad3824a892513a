import Pure64.Codec
import Pure64.Tree
import Pure64.Disk
import Pure64.Crc32
import Pure64.Gpt
import Pure64.Init
import Pure64.Image
import Pure64.Heap
import Pure64.Store
import Pure64.StoreRuns
import Pure64.Decoder
import Pure64.StoreErrors
import Pure64.Encoder
import Pure64.Session
import Pure64.Cli
import Pure64.Reopen
import Pure64.Commands
